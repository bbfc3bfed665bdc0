import Onboard.Proofs.Json.Record
import Onboard.Proofs.Json.Settled

/-! Messages whose numbers are replaced before they are decoded. All else in a message comes through, and so do whole
numbers of 64 bits, so that a message is kept just if each of its other numbers is. -/

namespace Onboard.Json

/-- A replacement of numbers alone, which spares whole numbers of 64 bits. -/
structure Renumbers (σ : Json → Json) : Prop where
  null : σ .null = .null
  bool (value : Bool) : σ (.bool value) = .bool value
  string (content : Bytes) : σ (.string content) = .string content
  array (items : List Json) : σ (.array items) = .array (items.map σ)
  object (members : List (Bytes × Json)) : σ (.object members) = .object (members.map fun m => (m.1, σ m.2))
  whole {n : ℕ} : n ≤ Literal.most → σ (ofNat n) = ofNat n

theorem renumbers_id : Renumbers id where
  null := rfl
  bool _ := rfl
  string _ := rfl
  array items := by rw [List.map_id]; rfl
  object members := by simp
  whole _ := rfl

theorem renumbers_settle : Renumbers settle where
  null := rfl
  bool _ := rfl
  string _ := rfl
  array items := by rw [settle, settleItems_eq]
  object members := by rw [settle, settleMembers_eq]
  whole := settle_ofNat

variable {σ : Json → Json}

/-- A number is the same after it was written, replaced and read. -/
def KeepsFloat (σ : Json → Json) (x : Float) : Prop :=
  toFloat? (σ (ofFloat x)) = some x

def KeepsSingle (σ : Json → Json) (x : Single) : Prop :=
  toSingle? (σ (ofSingle x)) = some x

theorem mapM_map {α β : Type} {f : β → Option α} {g : α → β} {l : List α} (each : ∀ x ∈ l, f (g x) = some x) :
    (l.map g).mapM f = some l := by
  induction l with
  | nil => rfl
  | cons x rest ih =>
    rw [List.forall_mem_cons] at each
    rw [List.map_cons, List.mapM_cons, each.1, ih each.2]
    rfl

namespace Renumbers

theorem fields? (reads : Renumbers σ) (names : List String) (values : List Json) (different : names.Nodup)
    (size : names.length = values.length) :
    Json.fields? names (σ (Wire.record (names.zip values))) = some (values.map fun value => some (σ value)) := by
  have same : σ (Wire.record (names.zip values)) = Wire.record (names.zip (values.map σ)) := by
    rw [Wire.record, reads.object, Wire.record, List.zip_map_right, List.map_map, List.map_map]
    rfl
  rw [same, fields?_zip different (by rw [List.length_map, size]), List.map_map]
  rfl

theorem toBool? (reads : Renumbers σ) (value : Bool) : Json.toBool? (σ (.bool value)) = some value := by
  rw [reads.bool]
  rfl

theorem toText? (reads : Renumbers σ) (text : String) : Json.toText? (σ (ofText text)) = some text := by
  rw [ofText, reads.string]
  exact toText?_ofText text

theorem toNat? (reads : Renumbers σ) {n limit : ℕ} (bound : n ≤ limit) (small : limit ≤ Literal.most) :
    Json.toNat? limit (σ (ofNat n)) = some n := by
  rw [reads.whole (bound.trans small), toNat?_ofNat bound]

/-- The name of a variant that carries nothing. -/
theorem toVariant?_text (reads : Renumbers σ) (name : String) :
    Json.toVariant? (σ (ofText name)) = some (name, none) := by
  rw [ofText, reads.string, Json.toVariant?, contentText?_escape]
  rfl

theorem toVariant?_variant (reads : Renumbers σ) (name : String) (value : Json) :
    Json.toVariant? (σ (Wire.variant name value)) = some (name, some (σ value)) := by
  rw [Wire.variant, Wire.record, reads.object, List.map_map, List.map_singleton, Json.toVariant?]
  dsimp only [Function.comp_apply]
  rw [contentText?_escape]
  rfl

/-- A member of a finite type is known by its name, if no other one has it. -/
theorem named? {α : Type} (reads : Renumbers σ) {name : α → String} {all : List α} {x : α} (member : x ∈ all)
    (different : ∀ y ∈ all, name y = name x → y = x) : Wire.named? name all (σ (ofText (name x))) = some x := by
  have read : Json.toUnitVariant? (σ (ofText (name x))) = some (name x) := by
    rw [Json.toUnitVariant?, reads.toVariant?_text]
    rfl
  have found : (all.find? fun y => name y = name x).isSome = true :=
    List.find?_isSome.mpr ⟨x, member, decide_eq_true rfl⟩
  obtain ⟨y, first⟩ := Option.isSome_iff_exists.mp found
  have named : name y = name x := of_decide_eq_true (List.find?_some first :)
  have same := different y (List.mem_of_find?_eq_some first) named
  rw [Wire.named?, read]
  exact first.trans (congrArg some same)

theorem toList? {α : Type} (reads : Renumbers σ) {item : Json → Option α} {toJson : α → Json} {l : List α}
    (each : ∀ x ∈ l, item (σ (toJson x)) = some x) : Json.toList? item (σ (.array (l.map toJson))) = some l := by
  rw [reads.array, List.map_map, Json.toList?]
  exact mapM_map each

end Renumbers

end Onboard.Json
