import TagRetention.Api.Service
import TagRetention.Client.Transport

/-!
The service over HTTP as a client sees it: every request goes through the router of the service.
-/

namespace TagRetention.Client

variable {σ : Type}

def HttpReply.ofResponse (r : Api.Response) : HttpReply :=
  ⟨r.status, r.total.map toString, r.body⟩

def remote (c : Api.Setting σ) (now : Instant) : Service (Api.State σ) := fun q s =>
  let (response, s) := (Api.serve c (Transport.message q)).run now s
  (Transport.interpret q (some (.ofResponse response)), s)

end TagRetention.Client
