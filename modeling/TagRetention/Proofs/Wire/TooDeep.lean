import TagRetention.Proofs.Wire.RoundTrip

/-!
Policies whose documents nest deeper than the reader goes. Only the parameters of a rule can, and
the first rule where they do makes the whole document unreadable.
-/

namespace TagRetention.Json.Node

mutual

theorem value_found_of_deep : (j : Json) → (room : Nat) → j.Canonical → room < j.depth →
    value (found room j) = .error .malformed
  | .null, _, _, h | .bool _, _, _, h | .num _, _, _, h | .str _, _, _, h => by
    cases h
  | .arr items, room, hc, h => by
    rw [Canonical] at hc
    rw [depth] at h
    rw [found]
    split
    · rfl
    · rw [value, values_found_of_deep items (room - 1) hc (by omega)]
  | .obj fields, room, hc, h => by
    rw [Canonical] at hc
    rw [depth] at h
    rw [found]
    split
    · rfl
    · rw [value, members_found_of_deep fields (room - 1) .empty hc.2 (by omega)]

theorem values_found_of_deep : (items : List Json) → (room : Nat) → CanonicalItems items →
    room < itemsDepth items → values (foundItems room items) = .error .malformed
  | [], _, _, h => by
    cases h
  | a :: r, room, hc, h => by
    rw [foundItems, values]
    by_cases ha : a.depth ≤ room
    -- The item is read, so the deep one comes after it.
    · obtain ⟨v, hv, -⟩ := value_ofJson a hc.1
      rw [itemsDepth] at h
      rw [found_of_depth a room ha, hv, values_found_of_deep r room hc.2 (by omega)]
      rfl
    · rw [value_found_of_deep a room hc.1 (Nat.lt_of_not_le ha)]

theorem members_found_of_deep : (fields : List (String × Json)) → (room : Nat) → (m : Members) →
    CanonicalFields fields → room < fieldsDepth fields →
    members m (foundFields room fields) = .error .malformed
  | [], _, _, _, h => by
    cases h
  | (k, a) :: r, room, m, hc, h => by
    rw [foundFields, members]
    by_cases ha : a.depth ≤ room
    · obtain ⟨v, hv, -⟩ := value_ofJson a hc.1
      rw [fieldsDepth] at h
      rw [found_of_depth a room ha, hv]
      exact members_found_of_deep r room _ hc.2 (by omega)
    · rw [value_found_of_deep a room hc.1 (Nat.lt_of_not_le ha)]

end

end TagRetention.Json.Node

namespace TagRetention.Wire

open Json Json.Node Json.Decode

theorem members_found_of_depth {m : Members} {room : Nat}
    (h : room < (Value.object m).json.depth) :
    nullable Decode.members (found room (Value.object m).json) = .error .malformed := by
  have hcanonical := (Value.object m).canonical
  rw [Value.object] at h hcanonical ⊢
  rw [Canonical] at hcanonical
  rw [depth] at h
  rw [found]
  split
  · rfl
  · rw [nullable, Decode.members, members_found_of_deep _ _ .empty hcanonical.2 (by omega)]
    · rfl
    · rintro ⟨⟩

theorem depth_encodeRule (r : Rule) :
    (encodeRule r).depth = max 3 (Value.object r.params).json.depth + 1 := by
  have hselector {δ : Type} (name : δ → String) (s : Selector δ) :
      (encodeSelector name s).depth = 1 := rfl
  simp only [encodeRule, depth, itemsDepth, fieldsDepth, hselector, Json.int]
  omega

theorem rule_found_of_deep {r : Rule} {room : Nat} (h : r.InRange)
    (hdeep : room + 1 < (encodeRule r).depth) (hroom : 3 ≤ room) :
    rule (found (room + 1) (encodeRule r)) = .error .malformed := by
  rw [depth_encodeRule] at hdeep
  have hparams : nullable Decode.members (found room (Value.object r.params).json) =
      .error .malformed :=
    members_found_of_depth (by omega)
  have hpriority : int32 (found room (.int r.priority)) = .ok r.priority := int32_ofJson h
  rw [encodeRule, found, if_neg (Nat.succ_ne_zero room), Nat.add_sub_cancel, rule, record,
    Fields.decode]
  simp [foundFields, Fields.fillAll, Fields.fill, noSlots, defaulted, required, hpriority, hparams,
    found, Decode.bool, Decode.text, Except.map]

theorem rules_found_of_deep {rules : List Rule} {room : Nat} (h : ∀ r ∈ rules, r.InRange)
    (hdeep : room + 1 < itemsDepth (rules.map encodeRule)) (hroom : 3 ≤ room) :
    each rule (foundItems (room + 1) (rules.map encodeRule)) = .error .malformed := by
  induction rules with
  | nil => cases hdeep
  | cons r rules ih =>
    have hr : r.InRange := h r List.mem_cons_self
    rw [List.map_cons, foundItems, each]
    by_cases hfits : (encodeRule r).depth ≤ room + 1
    · rw [List.map_cons, itemsDepth] at hdeep
      rw [found_of_depth _ _ hfits, rule_ofJson hr,
        ih (fun q hq => h q (List.mem_cons_of_mem r hq)) (by omega)]
      rfl
    · rw [rule_found_of_deep hr (Nat.lt_of_not_le hfits) hroom]

theorem policy_found_of_deep {p : Policy} (h : p.InRange)
    (hdeep : maxDepth < (encodePolicy p).depth) :
    policy (found maxDepth (encodePolicy p)) = .error .malformed := by
  rw [depth_encodePolicy, Json.ofList, depth, maxDepth] at hdeep
  obtain ⟨hid, hscope, hrules⟩ := h
  -- The policy and the list of its rules take two of the levels.
  have hrules : list rule (found 126 (.ofList encodeRule p.rules)) = .error .malformed := by
    have hitems : 124 + 1 < itemsDepth (p.rules.map encodeRule) := by omega
    have heach : each rule (foundItems 125 (p.rules.map encodeRule)) = .error .malformed :=
      rules_found_of_deep hrules hitems (by decide)
    rw [Json.ofList, found, if_neg (by decide), list, heach]
  have hscope : scope (found 126 (encodeScope p.scope)) = .ok p.scope := by
    have hdepth : (encodeScope p.scope).depth = 1 := rfl
    rw [found_of_depth _ _ (hdepth.trans_le (by decide))]
    exact scope_ofJson hscope
  obtain ⟨id, pscope, rules, ptrigger⟩ := p
  cases id with
  | none =>
    rw [encodePolicy, maxDepth, found, if_neg (by decide), policy, record, Fields.decode]
    simp [foundFields, Fields.fillAll, Fields.fill, noSlots, defaulted, required, hscope, hrules,
      Except.map]
  | some id =>
    have hid : nullable int64 (found 126 (.int id)) = .ok (some id) :=
      nullable_of_ne (by rintro ⟨⟩) (int64_ofJson (hid id rfl))
    rw [encodePolicy, maxDepth, found, if_neg (by decide), policy, record, Fields.decode]
    simp [foundFields, Fields.fillAll, Fields.fill, noSlots, defaulted, required, hscope, hrules,
      hid, Except.map]

end TagRetention.Wire
