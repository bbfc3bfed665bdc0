import Onboard.Loop.Faults

/-! Searching bytes for a plain text. Decoding first neither hides a text of one-byte characters nor makes one up:
every byte of such a text is a character on its own, and all other bytes become characters beyond them. -/

namespace Onboard

theorem occursIn_iff {α : Type} [BEq α] [LawfulBEq α] (part l : List α) : occursIn part l = true ↔ part <:+: l := by
  induction l with
  | nil => rw [occursIn, List.isEmpty_iff, List.infix_nil]
  | cons a rest ih => rw [occursIn, Bool.or_eq_true, List.isPrefixOf_iff_prefix, ih, List.infix_cons_iff]

theorem not_prefix_of_head {α : Type} {part l : List α} {x : α} (some : part ≠ []) (foreign : x ∉ part) :
    ¬ part <+: x :: l := by
  rintro ⟨rest, same⟩
  cases part with
  | nil => exact some rfl
  | cons a part =>
    rw [List.cons_append, List.cons.injEq] at same
    exact foreign (same.1 ▸ List.mem_cons_self)

theorem infix_skip {α : Type} {part l skipped : List α} (some : part ≠ []) (foreign : ∀ x ∈ skipped, x ∉ part) :
    part <:+: skipped ++ l ↔ part <:+: l := by
  induction skipped with
  | nil => rfl
  | cons x rest ih =>
    obtain ⟨first, others⟩ := List.forall_mem_cons.mp foreign
    rw [List.cons_append, List.infix_cons_iff, ih others, or_iff_right (not_prefix_of_head some first)]

namespace Utf8

/-- A byte that is a character on its own, nought apart. -/
def IsPlain (b : UInt8) : Prop :=
  0 < b.toNat ∧ b.toNat < 0x80

/-- The character of a plain byte. -/
def plainChar (b : UInt8) : Char :=
  Char.ofNat b.toNat

/-- A character that no plain byte stands for. -/
def IsWide (c : Char) : Prop :=
  c.toNat = 0 ∨ 0x80 ≤ c.toNat

/-- The character that is pending will be none of a plain byte. -/
structure Pending.IsSound (p : Pending) : Prop where
  low : 0x80 ≤ p.low
  high : p.high ≤ 0xBF
  value : 2 ≤ p.value ∨ 2 ≤ p.owed ∧ (1 ≤ p.value ∨ 0x82 ≤ p.low)

def AreSound (pending : Option Pending) : Prop :=
  ∀ p, pending = some p → p.IsSound

theorem areSound_none : AreSound none :=
  nofun

theorem areSound_some (sound : p.IsSound) : AreSound (some p) := by
  rintro _ ⟨⟩
  exact sound

theorem toNat_ofNat (n : Nat) : (Char.ofNat n).toNat = n ∨ (Char.ofNat n).toNat = 0 := by
  by_cases valid : n.isValidChar
  · exact .inl (congrArg Char.toNat (dif_pos valid))
  · exact .inr (congrArg Char.toNat (dif_neg valid))

theorem toNat_plainChar (small : b.toNat < 0x80) : (plainChar b).toNat = b.toNat := by
  have valid : b.toNat.isValidChar := .inl (Nat.lt_trans small (by decide))
  exact congrArg Char.toNat (dif_pos valid)

theorem plainChar_inj (smallA : a.toNat < 0x80) (smallB : b.toNat < 0x80) : plainChar a = plainChar b ↔ a = b := by
  refine ⟨fun same => ?_, congrArg _⟩
  have same := congrArg Char.toNat same
  rw [toNat_plainChar smallA, toNat_plainChar smallB] at same
  exact UInt8.toNat_inj.mp same

theorem isWide_replacement : IsWide replacement := by
  unfold IsWide
  decide

theorem isWide_ofNat (beyond : 0x80 ≤ n) : IsWide (Char.ofNat n) := by
  rcases toNat_ofNat n with same | none
  · exact .inr (by rw [same]; exact beyond)
  · exact .inl none

theorem IsWide.not_mem {text : List UInt8} (wide : IsWide c) (plain : ∀ b ∈ text, IsPlain b) :
    c ∉ text.map plainChar := by
  intro member
  obtain ⟨b, inside, rfl⟩ := List.mem_map.mp member
  have bounds := plain b inside
  have same := toNat_plainChar bounds.2
  unfold IsPlain at bounds
  unfold IsWide at wide
  omega

/-- A byte that is no character on its own begins one that is sound, or is refused. -/
theorem start_wide (wide : 0x80 ≤ b) : start b = .refused ∨ ∃ p, start b = .more p ∧ p.IsSound := by
  rw [start, if_neg (Nat.not_lt.mpr wide)]
  split
  · exact .inl rfl
  split
  · exact .inr ⟨_, rfl, Nat.le_refl _, Nat.le_refl _, by dsimp only; omega⟩
  split
  · exact .inr ⟨_, rfl, by decide, by decide, by decide⟩
  split
  · exact .inr ⟨_, rfl, by decide, by decide, by decide⟩
  split
  · exact .inr ⟨_, rfl, Nat.le_refl _, Nat.le_refl _, by dsimp only; omega⟩
  split
  · exact .inr ⟨_, rfl, by decide, by decide, by decide⟩
  split
  · exact .inr ⟨_, rfl, Nat.le_refl _, Nat.le_refl _, by dsimp only; omega⟩
  split
  · exact .inr ⟨_, rfl, by decide, by decide, by decide⟩
  · exact .inl rfl

/-- What a byte brings: characters beyond the plain ones, and then itself if it is one on its own. Nothing that was
pending is lost. -/
inductive Brings (pending : Option Pending) (b : Nat) : List Char × Option Pending → Prop where
  | plain (wide : ∀ c ∈ done, IsWide c) : b < 0x80 → (pending.isSome = true → done ≠ []) →
      Brings pending b (done ++ [Char.ofNat b], none)
  | beyond (wide : ∀ c ∈ done, IsWide c) : 0x80 ≤ b → AreSound next → (done = [] → next.isSome = true) →
      Brings pending b (done, next)

/-- A byte that does not continue a character. -/
theorem brings_fresh (wide : ∀ c ∈ done, IsWide c) (whole : pending.isSome = true → done ≠ []) (b : Nat) :
    Brings pending b (match start b with
      | .whole c => (done ++ [c], none)
      | .more p => (done, some p)
      | .refused => (done ++ [replacement], none)) := by
  by_cases plain : b < 0x80
  · rw [start, if_pos plain]
    exact .plain wide plain whole
  have beyond : 0x80 ≤ b := Nat.not_lt.mp plain
  rcases start_wide beyond with refused | ⟨p, more, sound⟩
  · rw [refused]
    refine .beyond ?_ beyond nofun (by simp)
    simp only [List.forall_mem_append, List.forall_mem_singleton]
    exact ⟨wide, isWide_replacement⟩
  · rw [more]
    exact .beyond wide beyond (areSound_some sound) fun _ => rfl

theorem brings_step (sound : AreSound pending) (b : Nat) : Brings pending b (step pending b) := by
  unfold step
  cases pending with
  | none => exact brings_fresh (by simp) (by simp) b
  | some p =>
    obtain ⟨low, high, value⟩ := sound p rfl
    dsimp only
    split
    · next within =>
      have beyond : 0x80 ≤ b := Nat.le_trans low within.1
      split
      · next last =>
        refine .beyond ?_ beyond nofun nofun
        rw [List.forall_mem_singleton]
        exact isWide_ofNat (by omega)
      · next owed =>
        refine .beyond (by simp) beyond (areSound_some ?_) fun _ => rfl
        exact ⟨Nat.le_refl _, Nat.le_refl _, .inl (by dsimp only; omega)⟩
    · refine brings_fresh ?_ (fun _ => List.cons_ne_nil _ _) b
      rw [List.forall_mem_singleton]
      exact isWide_replacement

section Search

variable {text : Bytes} (some : text ≠ []) (plain : ∀ b ∈ text, IsPlain b)

include some plain

theorem not_prefix_wide (wide : IsWide c) (l : List Char) : ¬ text.map plainChar <+: c :: l :=
  not_prefix_of_head (by simpa using some) (wide.not_mem plain)

/-- A byte that is no character on its own brings none that is plain, now or later. -/
theorem not_prefix_beyond {done : List Char} (wide : ∀ c ∈ done, IsWide c) (whole : done = [] → next.isSome = true)
    (later : ∀ p, next = Option.some p → ¬ text.map plainChar <+: lossyFrom (Option.some p) rest) :
    ¬ text.map plainChar <+: done ++ lossyFrom next rest := by
  match done with
  | [] =>
    obtain ⟨p, rfl⟩ := Option.isSome_iff_exists.mp (whole rfl)
    exact later p rfl
  | c :: others => exact not_prefix_wide some plain (wide c List.mem_cons_self) _

/-- What is pending becomes a character that is not plain. -/
theorem not_prefix_pending (sound : p.IsSound) (bytes : Bytes) :
    ¬ text.map plainChar <+: lossyFrom (Option.some p) bytes := by
  induction bytes generalizing p with
  | nil => exact not_prefix_wide some plain isWide_replacement _
  | cons b rest ih =>
    have brought := brings_step (areSound_some sound) b.toNat
    rw [lossyFrom]
    generalize step (Option.some p) b.toNat = r at brought ⊢
    cases brought with
    | @plain done wide _ whole =>
      obtain ⟨c, others, rfl⟩ := List.exists_cons_of_ne_nil (whole rfl)
      exact not_prefix_wide some plain (wide c List.mem_cons_self) _
    | beyond wide _ soundNext whole =>
      exact not_prefix_beyond some plain wide whole fun q same => ih (soundNext q same)

omit some in
/-- Between characters a plain text begins where its bytes do. -/
theorem prefix_lossyFrom_iff (bytes : Bytes) :
    text.map plainChar <+: lossyFrom none bytes ↔ text <+: bytes := by
  induction text generalizing bytes with
  | nil => simp only [List.map_nil, List.nil_prefix]
  | cons a text ih =>
    obtain ⟨plainA, others⟩ := List.forall_mem_cons.mp plain
    cases bytes with
    | nil => simp [lossyFrom]
    | cons b rest =>
      by_cases small : b.toNat < 0x80
      · have single : lossyFrom none (b :: rest) = plainChar b :: lossyFrom none rest := by
          simp only [lossyFrom, step, start, if_pos small, List.nil_append, List.singleton_append, plainChar]
        rw [single, List.map_cons, List.cons_prefix_cons, List.cons_prefix_cons, ih others,
          plainChar_inj plainA.2 small]
      · have brought := brings_step areSound_none b.toNat
        rw [lossyFrom]
        generalize step none b.toNat = r at brought ⊢
        have different : ¬ a :: text <+: b :: rest := by
          rw [List.cons_prefix_cons]
          rintro ⟨rfl, -⟩
          exact small plainA.2
        refine iff_of_false ?_ different
        cases brought with
        | plain _ less => exact absurd less small
        | beyond wide _ soundNext whole =>
          exact not_prefix_beyond (List.cons_ne_nil a text) plain wide whole fun q same =>
            not_prefix_pending (List.cons_ne_nil a text) plain (soundNext q same) rest

/-- A plain text is found among the characters exactly if its bytes are found among the bytes. -/
theorem infix_lossyFrom_iff (sound : AreSound pending) (bytes : Bytes) :
    text.map plainChar <:+: lossyFrom pending bytes ↔ text <:+: bytes := by
  have chars : text.map plainChar ≠ [] := by simpa using some
  have skip {done : List Char} (wide : ∀ c ∈ done, IsWide c) (l : List Char) :
      text.map plainChar <:+: done ++ l ↔ text.map plainChar <:+: l :=
    infix_skip chars fun c member => (wide c member).not_mem plain
  induction bytes generalizing pending with
  | nil =>
    have ending := skip (List.forall_mem_singleton.mpr isWide_replacement) []
    have nothing : text.map plainChar <:+: lossyFrom pending [] ↔ text.map plainChar <:+: [] := by
      rw [lossyFrom]
      split
      · exact ending
      · rfl
    rw [nothing, List.infix_nil, List.infix_nil, List.map_eq_nil_iff]
  | cons b rest ih =>
    have brought := brings_step sound b.toNat
    rw [lossyFrom]
    generalize step pending b.toNat = r at brought ⊢
    cases brought with
    | plain wide small _ =>
      have single : lossyFrom none (b :: rest) = Char.ofNat b.toNat :: lossyFrom none rest := by
        simp only [lossyFrom, step, start, if_pos small, List.nil_append, List.singleton_append]
      rw [List.append_assoc, skip wide, List.singleton_append, List.infix_cons_iff, List.infix_cons_iff, ← single,
        prefix_lossyFrom_iff plain]
      exact or_congr_right (ih areSound_none)
    | beyond wide beyond soundNext _ =>
      have different : b ∉ text := fun member => Nat.not_lt.mpr beyond (plain b member).2
      rw [skip wide, List.infix_cons_iff, or_iff_right (not_prefix_of_head some different)]
      exact ih soundNext

end Search

theorem infix_decodeLossy_iff {text : Bytes} (some : text ≠ []) (plain : ∀ b ∈ text, IsPlain b) (bytes : Bytes) :
    text.map plainChar <:+: decodeLossy bytes ↔ text <:+: bytes :=
  infix_lossyFrom_iff some plain areSound_none bytes

/-- What a byte leaves pending will be no plain character either. -/
theorem areSound_step (sound : AreSound pending) (b : Nat) : AreSound (step pending b).2 := by
  have brought := brings_step sound b
  generalize step pending b = r at brought
  cases brought with
  | plain => exact areSound_none
  | beyond _ _ soundNext _ => exact soundNext

theorem step_plain (sound : AreSound pending) (small : b.toNat < 0x80) :
    step pending b.toNat = (lossyFrom pending [] ++ [plainChar b], none) := by
  cases pending with
  | none => simp [step, start, small, lossyFrom, plainChar]
  | some p =>
    have low := (sound p rfl).low
    have outside : ¬ (p.low ≤ b.toNat ∧ b.toNat ≤ p.high) := by omega
    simp [step, start, small, outside, lossyFrom, plainChar]

/-- A plain byte ends what is pending, and decoding starts anew after it. -/
theorem lossyFrom_plain (sound : AreSound pending) (small : b.toNat < 0x80) (rest : Bytes) :
    lossyFrom pending (b :: rest) = lossyFrom pending [] ++ plainChar b :: lossyFrom none rest := by
  change (step pending b.toNat).1 ++ lossyFrom (step pending b.toNat).2 rest = _
  simp only [step_plain sound small, List.append_assoc, List.singleton_append]

theorem lossyFrom_plains {text : Bytes} (plain : ∀ b ∈ text, IsPlain b) (rest : Bytes) :
    lossyFrom none (text ++ rest) = text.map plainChar ++ lossyFrom none rest := by
  induction text with
  | nil => rfl
  | cons a text ih =>
    obtain ⟨plainA, others⟩ := List.forall_mem_cons.mp plain
    rw [List.cons_append, lossyFrom_plain areSound_none plainA.2, ih others]
    rfl

/-- The bytes before a plain text are decoded as if they ended there, and those behind it as if they began there. -/
theorem lossyFrom_around {text : Bytes} (some : text ≠ []) (plain : ∀ b ∈ text, IsPlain b) (sound : AreSound pending)
    (before after : Bytes) : lossyFrom pending (before ++ text ++ after) =
      lossyFrom pending before ++ text.map plainChar ++ lossyFrom none after := by
  induction before generalizing pending with
  | nil =>
    obtain ⟨a, rest, rfl⟩ := List.exists_cons_of_ne_nil some
    obtain ⟨plainA, others⟩ := List.forall_mem_cons.mp plain
    rw [List.nil_append, List.cons_append, lossyFrom_plain sound plainA.2, lossyFrom_plains others, List.map_cons,
      List.append_assoc, List.cons_append]
  | cons b before ih =>
    have later := ih (areSound_step sound b.toNat)
    simp only [List.cons_append, lossyFrom, List.append_assoc] at later ⊢
    rw [later]

theorem isWide_pending {pending : Option Pending} : ∀ c ∈ lossyFrom pending [], IsWide c := by
  rw [lossyFrom]
  split
  · intro c member
    rw [List.mem_singleton.mp member]
    exact isWide_replacement
  · nofun

section Occurrence
variable {text : Bytes} (some : text ≠ []) (plain : ∀ b ∈ text, IsPlain b)
include some plain

/-- A plain text that stands somewhere among characters stands behind those that are not plain. -/
theorem skip_wide {done l before after : List Char} (wide : ∀ c ∈ done, IsWide c)
    (same : done ++ l = before ++ (text.map plainChar ++ after)) :
    ∃ rest, before = done ++ rest ∧ l = rest ++ (text.map plainChar ++ after) := by
  rcases List.append_eq_append_iff.mp same with ⟨rest, split, found⟩ | ⟨rest, split, found⟩
  · exact ⟨rest, split, found⟩
  · cases rest with
    | nil => exact ⟨[], by rw [split, List.append_nil, List.append_nil], found.symm⟩
    | cons c rest =>
      -- The text would begin with a character that is not plain.
      obtain ⟨a, others, rfl⟩ := List.exists_cons_of_ne_nil some
      obtain ⟨rfl, -⟩ := List.cons.inj found
      have member : plainChar a ∈ done := by simp [split]
      exact absurd (List.mem_map_of_mem List.mem_cons_self) ((wide _ member).not_mem plain)

/-- Each place of a plain text among the characters is one of its bytes among the bytes. -/
theorem exists_of_lossyFrom (sound : AreSound pending) {bytes : Bytes} {before after : List Char}
    (found : lossyFrom pending bytes = before ++ (text.map plainChar ++ after)) :
    ∃ a b, bytes = a ++ text ++ b ∧ lossyFrom pending a = before ∧ lossyFrom none b = after := by
  induction bytes generalizing pending before with
  | nil =>
    obtain ⟨rest, -, empty⟩ := skip_wide some plain (l := []) isWide_pending (by rw [List.append_nil]; exact found)
    simp [some] at empty
  | cons b bytes ih =>
    by_cases small : b.toNat < 0x80
    · rw [lossyFrom_plain sound small] at found
      obtain ⟨rest, rfl, here⟩ := skip_wide some plain isWide_pending found
      cases rest with
      | nil =>
        have starts : text <+: b :: bytes := by
          rw [← prefix_lossyFrom_iff plain, lossyFrom_plain areSound_none small]
          exact ⟨after, here.symm⟩
        obtain ⟨behind, same⟩ := starts
        refine ⟨[], behind, by rw [List.nil_append, same], by rw [List.append_nil], ?_⟩
        have decoded := lossyFrom_plains plain behind
        rw [same, lossyFrom_plain areSound_none small] at decoded
        exact (List.append_cancel_left (decoded.symm.trans here))
      | cons c rest =>
        obtain ⟨rfl, later⟩ := List.cons.inj here
        obtain ⟨a, behind, rfl, first, last⟩ := ih areSound_none later
        exact ⟨b :: a, behind, rfl, by rw [lossyFrom_plain sound small, first], last⟩
    · have brought := brings_step sound b.toNat
      have soundNext := areSound_step sound b.toNat
      rw [lossyFrom] at found
      obtain ⟨rest, rfl, here⟩ := skip_wide some plain (by
        generalize step pending b.toNat = r at brought
        cases brought with
        | plain _ less => exact absurd less small
        | beyond wide => exact wide) found
      obtain ⟨a, behind, rfl, first, last⟩ := ih soundNext here
      exact ⟨b :: a, behind, rfl, by rw [lossyFrom, first], last⟩

end Occurrence

/-- Decoding keeps every occurrence of a plain text and makes none: each one among the characters is one among the
bytes, and the bytes around it decode to the characters around it. -/
theorem decodeLossy_eq_iff {text : Bytes} (some : text ≠ []) (plain : ∀ b ∈ text, IsPlain b) (bytes : Bytes)
    (before after : List Char) : decodeLossy bytes = before ++ text.map plainChar ++ after ↔
      ∃ a b, bytes = a ++ text ++ b ∧ decodeLossy a = before ∧ decodeLossy b = after := by
  constructor
  · intro found
    rw [List.append_assoc] at found
    exact exists_of_lossyFrom some plain areSound_none found
  · rintro ⟨a, b, rfl, rfl, rfl⟩
    exact lossyFrom_around some plain areSound_none a b

end Utf8

end Onboard
