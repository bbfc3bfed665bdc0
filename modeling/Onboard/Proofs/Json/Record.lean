import Mathlib.Data.List.Nodup
import Onboard.Proofs.Json.Content
import Onboard.Wire.Basic

/-! Records are read field by field. What is written as a record is legible if its fields are, settling goes to the
fields, and reading finds each of them under its name. -/

namespace Onboard.Json

theorem settleItems_eq (items : List Json) : settleItems items = items.map settle := by
  induction items with
  | nil => rfl
  | cons item rest ih => rw [settleItems, ih, List.map_cons]

theorem settleMembers_eq (members : List (Bytes × Json)) :
    settleMembers members = members.map fun member => (member.1, settle member.2) := by
  induction members with
  | nil => rfl
  | cons member rest ih => rw [settleMembers, ih, List.map_cons]

theorem areLegible_iff (items : List Json) : AreLegible items ↔ ∀ item ∈ items, IsLegible item := by
  induction items with
  | nil => simp [AreLegible]
  | cons item rest ih => simp [AreLegible, ih]

theorem isLegible_ofText (text : String) : IsLegible (ofText text) :=
  isContent_escape _

theorem toText?_ofText (text : String) : toText? (ofText text) = some text :=
  contentText?_escape text

section Records
variable {names : List String} {values : List Json}

theorem isLegible_record {fields : List (String × Json)} (legible : ∀ field ∈ fields, IsLegible field.2) :
    IsLegible (Wire.record fields) := by
  change MembersLegible (fields.map _)
  induction fields with
  | nil => trivial
  | cons field rest ih =>
    exact ⟨isContent_escape _, legible field List.mem_cons_self,
      ih fun other member => legible other (List.mem_cons_of_mem _ member)⟩

theorem isLegible_zip (legible : ∀ value ∈ values, IsLegible value) :
    IsLegible (Wire.record (names.zip values)) :=
  isLegible_record fun _ member => legible _ (List.of_mem_zip member).2

theorem settle_record (fields : List (String × Json)) :
    settle (Wire.record fields) = Wire.record (fields.map fun field => (field.1, settle field.2)) := by
  rw [Wire.record, settle, settleMembers_eq, Wire.record, List.map_map, List.map_map]
  rfl

theorem settle_zip : settle (Wire.record (names.zip values)) = Wire.record (names.zip (values.map settle)) := by
  rw [settle_record, List.zip_map_right]
  rfl

/-- Fields of known and different names are all there is to know. -/
theorem knownMembers?_record {fields : List (String × Json)} (different : (fields.map Prod.fst).Nodup)
    (known : ∀ field ∈ fields, field.1 ∈ names) :
    knownMembers? names (fields.map fun f => (escape (Utf8.encode f.1), f.2)) = some fields := by
  induction fields with
  | nil => rfl
  | cons field rest ih =>
    rw [List.map_cons, List.nodup_cons] at different
    have others := ih different.2 fun other member => known other (List.mem_cons_of_mem _ member)
    have unseen : rest.lookup field.1 = none :=
      List.lookup_eq_none_iff.mpr fun other member =>
        bne_iff_ne.mpr fun same => different.1 (same ▸ List.mem_map_of_mem member)
    simp [knownMembers?, contentText?_escape, others, unseen, known field List.mem_cons_self]

theorem map_lookup_zip (different : names.Nodup) (size : names.length = values.length) :
    (names.map fun name => (names.zip values).lookup name) = values.map some := by
  induction names generalizing values with
  | nil =>
    cases List.eq_nil_of_length_eq_zero size.symm
    rfl
  | cons name rest ih =>
    match values with
    | value :: others =>
      rw [List.nodup_cons] at different
      have later : (rest.map fun other => ((name :: rest).zip (value :: others)).lookup other) =
          rest.map fun other => (rest.zip others).lookup other := by
        refine List.map_congr_left fun other member => ?_
        have apart : (other == name) = false := by
          rw [beq_eq_false_iff_ne]
          exact fun same => different.1 (same ▸ member)
        rw [List.zip_cons_cons, List.lookup_cons, apart]
      rw [List.map_cons, later, ih different.2 (Nat.succ.inj size)]
      simp

/-- The fields of a record are found in their order. -/
theorem fields?_zip (different : names.Nodup) (size : names.length = values.length) :
    fields? names (Wire.record (names.zip values)) = some (values.map some) := by
  have firsts : ((names.zip values).map Prod.fst).Nodup := by
    rwa [List.map_fst_zip (Nat.le_of_eq size)]
  rw [Wire.record, fields?, knownMembers?_record firsts fun _ member => (List.of_mem_zip member).1, Option.map_some,
    map_lookup_zip different size]

theorem fields?_settle (different : names.Nodup) (size : names.length = values.length) :
    fields? names (settle (Wire.record (names.zip values))) = some (values.map fun value => some (settle value)) := by
  rw [settle_zip, fields?_zip different (by rw [List.length_map, size]), List.map_map]
  rfl

end Records

end Onboard.Json
