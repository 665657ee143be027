import TagRetention.Client.Remote
import TagRetention.Proofs.Text.Trim
import TagRetention.Proofs.Wire.RunRecords

/-!
What a client makes of a reply: documents come back as what they were written from, and the total of
a listing comes back from its header.
-/

namespace TagRetention.Client

open Json Json.Node Json.Decode Transport

variable {α : Type} {d : Decoder α} {a : α} {j : Json} {status : Nat}

theorem decodeBody_document {r : HttpReply} (hbody : r.body = .document j) (hexact : j.IsExact)
    (hdepth : j.depth ≤ maxDepth) (hd : d (ofJson j) = .ok a) : decodeBody d r = .ok a := by
  rw [decodeBody, hbody, Api.Body.whole, Api.Body.content, read_text_of_depth hexact hdepth, hd]
  rfl

/-- Of a policy that was created only its id is read. -/
theorem createdId_ofJson {p : Policy} {id : PolicyId} (hid : p.id = some id) (h : Fits 63 id) :
    createdId (ofJson (Wire.encodePolicy p)) = .ok id := by
  have htolerates : Tolerates createdId (.record [("id", .leaf)]) :=
    FieldsTolerate.record (.cons (tolerates_leaf _) .nil) _
  have hwidens : Widens (.record [("id", .leaf)]) (.obj [("id", .int id)])
      (Wire.encodePolicy p) := by
    rw [Wire.encodePolicy, hid]
    exact .record <| .declared rfl (.refl _) <| .added rfl _ <| .added rfl _ <| .added rfl _ .nil
  rw [htolerates _ _ hwidens, createdId]
  exact record_ofJson (by decide) (.field (int64_ofJson h) .nil) rfl

theorem retentionId_ofJson {id : PolicyId} (h : Fits 63 id) :
    retentionId (ofJson (.obj [("retention_id", .int id)])) = .ok (some id) := by
  rw [retentionId]
  exact record_ofJson (by decide)
    (.field (nullable_of_ne (by rintro ⟨⟩) (int64_ofJson h)) .nil) rfl

theorem visible_of_isDigit {c : Char} (h : c.isDigit = true) :
    isVisible c = true ∧ Text.isBlank c = false := by
  refine ⟨?_, Text.isBlank_of_isDigit h⟩
  simp only [Char.isDigit, Bool.and_eq_true, decide_eq_true_eq, ge_iff_le,
    UInt32.le_iff_toNat_le] at h
  have hcode : 48 ≤ c.toNat ∧ c.toNat ≤ 57 := h
  simp only [isVisible, Bool.or_eq_true, Bool.and_eq_true, decide_eq_true_eq, Char.le_def,
    UInt32.le_iff_toNat_le]
  have hrange : 32 ≤ c.toNat ∧ c.toNat ≤ 126 := by omega
  exact .inl hrange

theorem totalOf_header {r : HttpReply} {n : Nat} (hn : n < 2 ^ 64)
    (htotal : r.total = some (toString n)) : totalOf r = .ok n := by
  have hdigits : ∀ c ∈ (toString n).toList, c.isDigit = true := by
    rw [Text.toList_toString_nat]
    exact fun _ => Text.isDigit_of_mem_digits
  have hvisible : (toString n).toList.all isVisible = true :=
    List.all_eq_true.mpr fun c hc => (visible_of_isDigit (hdigits c hc)).1
  have htrim : Text.trim (toString n) = toString n := by
    rw [Text.trim, Text.trimChars_of_forall fun c hc => (visible_of_isDigit (hdigits c hc)).2,
      String.ofList_toList]
  simp only [totalOf, htotal, hvisible, htrim, Text.natural_toString hn]

theorem itemsDepth_le {l : List Json} {n : Nat} (h : ∀ j ∈ l, j.depth ≤ n) : itemsDepth l ≤ n := by
  induction l with
  | nil => exact Nat.zero_le n
  | cons j l ih =>
    rw [itemsDepth]
    exact Nat.max_le.mpr ⟨h j List.mem_cons_self, ih fun i hi => h i (List.mem_cons_of_mem j hi)⟩

theorem pageOf_listing {encode : α → Json} {items : List α} {total : Nat} (htotal : total < 2 ^ 64)
    (hexact : ∀ a ∈ items, (encode a).IsExact) (hdepth : ∀ a ∈ items, (encode a).depth ≤ 126)
    (hd : ∀ a ∈ items, d (ofJson (encode a)) = .ok a) :
    pageOf d (.ofResponse (.listing total (items.map encode))) = .ok ⟨items, total⟩ := by
  have hcount : totalOf (.ofResponse (.listing total (items.map encode))) = .ok total :=
    totalOf_header htotal rfl
  have hnest : (Json.arr (items.map encode)).depth ≤ maxDepth := by
    rw [depth]
    refine Nat.succ_le_succ (itemsDepth_le ?_)
    rintro _ hj
    obtain ⟨a, ha, rfl⟩ := List.mem_map.mp hj
    exact hdepth a ha
  have hbody : decodeBody (list d) (.ofResponse (.listing total (items.map encode))) = .ok items :=
    decodeBody_document (j := .ofList encode items) rfl (Wire.isExact_ofList hexact) hnest
      (list_ofJson hd)
  rw [pageOf, hcount, hbody]
  rfl

end TagRetention.Client
