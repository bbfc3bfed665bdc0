import Onboard.Network.Service
import Onboard.Proofs.Number.Order

/-! Of many sets handed over one is followed: the first, until one comes that was sent strictly later. Among numbers
it is a latest one. -/

namespace Onboard

/-- The set to follow of those handed over. -/
def followed (handed : List (Option InboundSet)) : Option InboundSet :=
  handed.foldl NetworkService.newer none

theorem PrimitiveSet.not_isNewerThan_self (s : PrimitiveSet) : s.isNewerThan s = false :=
  decide_eq_false (Double.lt_irrefl s.timeSent)

theorem followed_append (handed : List (Option InboundSet)) (next : Option InboundSet) :
    followed (handed ++ [next]) = NetworkService.newer (followed handed) next := by
  simp only [followed, List.foldl_append, List.foldl_cons, List.foldl_nil]

/-- Only a set that was sent later takes the place of another. -/
theorem newer_ne {current next : Option InboundSet} (changed : NetworkService.newer current next ≠ current) :
    ∃ s, next = some s ∧ NetworkService.newer current next = some s ∧
      ∀ c, current = some c → c.set.timeSent < s.set.timeSent := by
  cases next with
  | none => exact absurd (by cases current <;> rfl) changed
  | some s =>
    cases current with
    | none => exact ⟨s, rfl, rfl, nofun⟩
    | some c =>
      rw [NetworkService.newer] at changed ⊢
      cases later : s.set.isNewerThan c.set with
      | true =>
        refine ⟨s, rfl, if_pos rfl, ?_⟩
        rintro _ ⟨⟩
        exact of_decide_eq_true later
      | false => exact absurd (if_neg (by rw [later]; decide)) changed

theorem newer_self (current : Option InboundSet) : NetworkService.newer current current = current := by
  cases current with
  | none => rfl
  | some c => exact if_neg (by rw [c.set.not_isNewerThan_self]; decide)

theorem newer_newer (current next : Option InboundSet) :
    NetworkService.newer current (NetworkService.newer current next) = NetworkService.newer current next := by
  by_cases same : NetworkService.newer current next = current
  · rw [same, newer_self]
  · obtain ⟨s, -, found, later⟩ := newer_ne same
    rw [found]
    cases current with
    | none => rfl
    | some c => exact if_pos (decide_eq_true (later c rfl))

theorem newer_mem {current next : Option InboundSet} (found : NetworkService.newer current next = some s) :
    current = some s ∨ next = some s := by
  unfold NetworkService.newer at found
  split at found
  · exact .inl found
  · exact .inr found
  · split at found
    · exact .inr found
    · exact .inl found

theorem le_newer {current next : Option InboundSet}
    (numbers : ∀ s, current = some s ∨ next = some s → s.set.timeSent.isNaN = false)
    (member : current = some t ∨ next = some t) :
    ∃ s, NetworkService.newer current next = some s ∧ t.set.timeSent ≤ s.set.timeSent := by
  have self := Double.le_refl (numbers t member)
  cases current with
  | none =>
    have last : next = some t := member.resolve_left nofun
    rw [last]
    exact ⟨t, rfl, self⟩
  | some c =>
    cases next with
    | none =>
      have first : some c = some t := member.resolve_right nofun
      rw [first]
      exact ⟨t, rfl, self⟩
    | some n =>
      have numberC := numbers c (.inl rfl)
      have numberN := numbers n (.inr rfl)
      rw [NetworkService.newer]
      cases newer : n.set.isNewerThan c.set with
      | true =>
        refine ⟨n, if_pos rfl, ?_⟩
        rcases member with same | same <;> cases same
        · exact Double.le_of_lt (of_decide_eq_true newer)
        · exact self
      | false =>
        refine ⟨c, if_neg (by decide), ?_⟩
        rcases member with same | same <;> cases same
        · exact self
        · exact Double.le_of_not_lt numberC numberN (of_decide_eq_false newer)

theorem followed_mem (found : followed handed = some s) : some s ∈ handed := by
  induction handed using List.reverseRecOn with
  | nil => contradiction
  | append_singleton handed next ih =>
    rw [followed_append] at found
    rcases newer_mem found with old | new
    · exact List.mem_append_left _ (ih old)
    · exact List.mem_append_right _ (new ▸ List.mem_singleton_self _)

theorem le_followed {handed : List (Option InboundSet)}
    (numbers : ∀ s, some s ∈ handed → s.set.timeSent.isNaN = false) (member : some t ∈ handed) :
    ∃ s, followed handed = some s ∧ t.set.timeSent ≤ s.set.timeSent := by
  induction handed using List.reverseRecOn with
  | nil => contradiction
  | append_singleton handed next ih =>
    have both : ∀ s, followed handed = some s ∨ next = some s → s.set.timeSent.isNaN = false := by
      rintro s (old | new)
      · exact numbers s (List.mem_append_left _ (followed_mem old))
      · exact numbers s (List.mem_append_right _ (new ▸ List.mem_singleton_self _))
    rw [followed_append]
    rcases List.mem_append.mp member with old | new
    · obtain ⟨c, found, older⟩ := ih (fun s inside => numbers s (List.mem_append_left _ inside)) old
      obtain ⟨s, newest, order⟩ := le_newer both (.inl found)
      exact ⟨s, newest, Double.le_trans older order⟩
    · exact le_newer both (.inr (List.mem_singleton.mp new).symm)

end Onboard
