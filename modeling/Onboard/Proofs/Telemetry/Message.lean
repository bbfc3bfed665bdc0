import Onboard.Proofs.Wire.Report
import Onboard.Telemetry.Message

/-! Messages with packets. A packet is written as text, from a brace on, so that its message is the topic, a blank and
that text, and the packet is what is read of it. -/

namespace Onboard

namespace Utf8

theorem encode_append (a b : String) : encode (a ++ b) = encode a ++ encode b := by
  simp [encode, String.toByteArray_append]

theorem encode_ofList (chars : List Char) : encode (String.ofList chars) = chars.flatMap String.utf8EncodeChar := by
  simp [encode, String.toByteArray_ofList, List.utf8Encode]

theorem encodeChar_of_small {c : Char} (small : c.toNat < 128) : String.utf8EncodeChar c = [UInt8.ofNat c.toNat] := by
  have low : c.toNat ≤ 127 := Nat.le_of_lt_succ small
  simp [String.utf8EncodeChar, low]

/-- The bytes of other characters are none of those that text is escaped for. -/
theorem le_of_mem_encodeChar {c : Char} (large : ¬ c.toNat < 128) : ∀ b ∈ String.utf8EncodeChar c, 128 ≤ b.toNat := by
  have high : ¬ c.val.toNat ≤ 127 := fun low => large (Nat.lt_succ_of_le low)
  unfold String.utf8EncodeChar
  dsimp only
  rw [if_neg high]
  split_ifs <;>
    simp only [List.mem_cons, List.not_mem_nil, or_false, forall_eq_or_imp, forall_eq, UInt8.toNat_ofNat'] <;>
    omega

end Utf8

/-- Bytes that are a text's. -/
def IsText (bytes : Bytes) : Prop :=
  ∃ text, Utf8.encode text = bytes

theorem IsText.append {a b : Bytes} (first : IsText a) (second : IsText b) : IsText (a ++ b) := by
  obtain ⟨front, rfl⟩ := first
  obtain ⟨back, rfl⟩ := second
  exact ⟨front ++ back, Utf8.encode_append front back⟩

theorem isText_of_small {bytes : Bytes} (small : ∀ b ∈ bytes, b.toNat < 128) : IsText bytes := by
  have value : ∀ n : Fin 128, (Char.ofNat n).toNat = n := by decide
  refine ⟨String.ofList (Json.ofBytes bytes), ?_⟩
  rw [Utf8.encode_ofList, Json.ofBytes, List.flatMap_map]
  induction bytes with
  | nil => rfl
  | cons b rest ih =>
    rw [List.forall_mem_cons] at small
    have same : (Char.ofNat b.toNat).toNat = b.toNat := value ⟨b.toNat, small.1⟩
    have one := Utf8.encodeChar_of_small (same.symm ▸ small.1)
    rw [same, UInt8.ofNat_toNat] at one
    rw [List.flatMap_cons, one, ih small.2]
    rfl

theorem IsText.cons {b : UInt8} {rest : Bytes} (small : b.toNat < 128) (later : IsText rest) : IsText (b :: rest) :=
  (isText_of_small (List.forall_mem_singleton.mpr small)).append later

namespace Json

theorem toNat_toBytes {chars : List Char} (small : ∀ c ∈ chars, c.toNat < 128) :
    ∀ b ∈ toBytes chars, b.toNat < 128 := by
  intro b member
  obtain ⟨c, inside, rfl⟩ := List.mem_map.mp member
  rw [toNat_byte (small c inside)]
  exact small c inside

theorem escapeByte_small {b : UInt8} (small : b.toNat < 128) : ∀ a ∈ escapeByte b, a.toNat < 128 := by
  obtain ⟨letter, written, escape, -, -⟩ | ⟨control, written⟩ | ⟨-, -, -, written⟩ := escapeByte_cases b
  · have letters : (ascii "\"\\/bfnrt").all (·.toNat < 128) = true := by decide +kernel
    have low := of_decide_eq_true (List.all_eq_true.mp letters letter (List.contains_iff_mem.mp escape))
    rw [written]
    exact List.forall_mem_cons.mpr ⟨by decide, List.forall_mem_singleton.mpr low⟩
  · have digit : ∀ n : Fin 16, (hexLetter n).toNat < 128 := by decide
    have value := toNat_lt_of_control control
    rw [written]
    simp only [List.forall_mem_cons]
    exact ⟨by decide, by decide, by decide, by decide, digit ⟨b.toNat / 16, by omega⟩, digit ⟨b.toNat % 16, by omega⟩,
      nofun⟩
  · rw [written]
    exact List.forall_mem_singleton.mpr small

theorem escape_large {bytes : Bytes} (large : ∀ b ∈ bytes, 128 ≤ b.toNat) : escape bytes = bytes := by
  have each : ∀ n : Fin 128, escapeByte (UInt8.ofNat (128 + n)) = [UInt8.ofNat (128 + n)] := by decide
  induction bytes with
  | nil => rfl
  | cons b rest ih =>
    rw [List.forall_mem_cons] at large
    have bound := b.toNat_lt
    have same := each ⟨b.toNat - 128, by omega⟩
    rw [Nat.add_sub_cancel' large.1, UInt8.ofNat_toNat] at same
    have later := ih large.2
    rw [escape] at later
    rw [escape, List.flatMap_cons, same, later, List.singleton_append]

theorem isText_escape (text : String) : IsText (escape (Utf8.encode text)) := by
  have whole := Utf8.encode_ofList text.toList
  rw [String.ofList_toList] at whole
  rw [whole]
  induction text.toList with
  | nil => exact ⟨"", rfl⟩
  | cons c rest ih =>
    have split : escape ((c :: rest).flatMap String.utf8EncodeChar) =
        escape (String.utf8EncodeChar c) ++ escape (rest.flatMap String.utf8EncodeChar) := by
      rw [List.flatMap_cons, escape, List.flatMap_append]
      rfl
    rw [split]
    refine IsText.append ?_ ih
    by_cases small : c.toNat < 128
    · rw [Utf8.encodeChar_of_small small, escape, List.flatMap_singleton]
      exact isText_of_small (escapeByte_small ((toNat_byte small).trans_lt small))
    · rw [escape_large (Utf8.le_of_mem_encodeChar small)]
      refine ⟨String.ofList [c], ?_⟩
      rw [Utf8.encode_ofList, List.flatMap_singleton]

theorem isText_null : IsText Json.null.print :=
  ⟨"null", rfl⟩

theorem isText_spelled {negative : Bool} {value : ℚ} {text : List Char} {s : Spelling}
    (spells : Layout.Spells negative value text s) : IsText (Json.number (toBytes text)).print := by
  rw [← spells.text]
  exact isText_of_small (toNat_toBytes (Spelling.toNat_text spells.proper))

theorem isText_ofFloat (x : Float) : IsText (ofFloat x).print := by
  by_cases finite : x.isFinite = true
  · obtain ⟨⟨s, spells⟩, -⟩ := spells_finite finite
    rw [ofFloat_eq finite]
    exact isText_spelled spells
  · rw [ofFloat, if_neg finite]
    exact isText_null

theorem isText_ofSingle (x : Single) : IsText (ofSingle x).print := by
  by_cases finite : x.isFinite = true
  · obtain ⟨⟨s, spells⟩, -⟩ := spells_finiteSingle finite
    rw [ofSingle_eq finite]
    exact isText_spelled spells
  · rw [ofSingle, if_neg finite]
    exact isText_null

theorem isText_ofNat (n : ℕ) : IsText (ofNat n).print := by
  rw [ofNat_eq]
  exact isText_of_small (toNat_toBytes (Spelling.toNat_text (isProper_wholeSpelling n)))

theorem isText_between {opening closing : UInt8} {bytes : Bytes} (first : opening.toNat < 128) (inside : IsText bytes)
    (last : closing.toNat < 128) : IsText (opening :: bytes ++ [closing]) :=
  (inside.cons first).append (isText_of_small (List.forall_mem_singleton.mpr last))

theorem isText_printItems : (items : List Json) → (∀ item ∈ items, IsText item.print) → IsText (printItems items)
  | [], _ => ⟨"", rfl⟩
  | [item], each => each item List.mem_cons_self
  | item :: next :: rest, each => by
    rw [List.forall_mem_cons] at each
    exact each.1.append ((isText_printItems (next :: rest) each.2).cons (by decide))

theorem isText_printMember {key : Bytes} {value : Json} (name : IsText key) (text : IsText value.print) :
    IsText (printMember (key, value)) := by
  rw [printMember]
  exact (name.cons (by decide)).append ((text.cons (by decide)).cons (by decide))

theorem isText_printMembers : (members : List (Bytes × Json)) →
    (∀ member ∈ members, IsText member.1 ∧ IsText member.2.print) → IsText (printMembers members)
  | [], _ => ⟨"", rfl⟩
  | [member], each => isText_printMember (each member List.mem_cons_self).1 (each member List.mem_cons_self).2
  | member :: next :: rest, each => by
    rw [List.forall_mem_cons] at each
    exact (isText_printMember each.1.1 each.1.2).append ((isText_printMembers (next :: rest) each.2).cons (by decide))

theorem isText_names {α : Type} (name : α → String) (l : List α) : IsText (Wire.names name l).print := by
  refine isText_between (by decide) (isText_printItems _ fun item inside => ?_) (by decide)
  obtain ⟨x, -, rfl⟩ := List.mem_map.mp inside
  exact isText_between (by decide) (isText_escape (name x)) (by decide)

/-- A record is a brace and text. -/
theorem print_zip (names : List String) (values : List Json) (each : ∀ value ∈ values, IsText value.print) :
    ∃ bytes, IsText bytes ∧ (Wire.record (names.zip values)).print = 0x7B :: bytes := by
  refine ⟨_, (isText_printMembers _ fun member inside => ?_).append ⟨"\x7d", rfl⟩, rfl⟩
  obtain ⟨field, listed, rfl⟩ := List.mem_map.mp inside
  exact ⟨isText_escape field.1, each _ (List.of_mem_zip listed).2⟩

end Json

theorem TelemetryPacket.write_eq (p : TelemetryPacket) : ∃ text, Wire.write p = Utf8.encode ("\x7b" ++ text) := by
  obtain ⟨_, ⟨text, rfl⟩, written⟩ := Json.print_zip fieldNames
    [Json.ofNat p.robotId.toNat, Json.ofFloat p.epochTime, Json.ofNat p.lastHandled.toNat,
     Json.ofSingle p.batteryVoltage, Json.ofSingle p.capacitorVoltage, Json.ofSingle p.currentDraw,
     Json.ofFloat p.cpuTemperature, Json.ofFloat p.iterationMs, Wire.names ErrorCode.name p.errorCodes]
    (by simp [Json.isText_ofNat, Json.isText_ofFloat, Json.isText_ofSingle, Json.isText_names])
  refine ⟨text, written.trans ?_⟩
  rw [Utf8.encode_append]
  rfl

namespace Telemetry

/-- What follows the topic and a blank is the body, if it does not begin with another blank. -/
theorem body?_topic (text : String) :
    body? (topic ++ " " ++ ("\x7b" ++ text)) = some (Utf8.encode ("\x7b" ++ text)) := by
  have whole : (topic ++ " " ++ ("\x7b" ++ text)).toList = topic.toList ++ ' ' :: '\x7b' :: text.toList := by simp
  have trimmed : Text.trimStart (' ' :: '\x7b' :: text.toList) = ("\x7b" ++ text).toList := by
    rw [String.toList_append]
    rfl
  rw [body?, afterStart?, whole, if_pos (List.isPrefixOf_iff_prefix.mpr (List.prefix_append ..)), List.drop_left,
    Option.map_some, trimmed, String.ofList_toList]

/-- A packet is read of its message as of its own text. -/
theorem ofMessage?_messageOf (p : TelemetryPacket) :
    (Utf8.decode? (messageOf p)).bind ofMessage? = Wire.read? (Wire.write p) := by
  obtain ⟨text, written⟩ := p.write_eq
  rw [messageOf, written, ← Utf8.encode_append, Utf8.decode?_encode, Option.bind_some, ofMessage?, body?_topic,
    Option.bind_some]

end Telemetry

/-- Statuses, crash reports and packets come back just if rounding leaves each number in them as it was. -/
theorem reports_read_back_iff (s : RobotStatus) (c : CrashReport) (p : TelemetryPacket) :
    ((Wire.readExact? (Wire.write s) = some s ↔ AreExact s.numbers s.singles) ∧
      (Wire.read? (Wire.write s) = some s ↔ AreReceived s.numbers s.singles)) ∧
    ((Wire.readExact? (Wire.write c) = some c ↔ AreExact c.status.numbers c.status.singles) ∧
      (Wire.read? (Wire.write c) = some c ↔ AreReceived c.status.numbers c.status.singles)) ∧
    (Wire.readExact? (Wire.write p) = some p ↔ AreExact p.numbers p.singles) ∧
      (Wire.read? (Wire.write p) = some p ↔ AreReceived p.numbers p.singles) ∧
      ((Utf8.decode? (Telemetry.messageOf p)).bind Telemetry.ofMessage? = some p ↔
        AreReceived p.numbers p.singles) := by
  refine ⟨⟨s.readExact?_write_iff, s.read?_write_iff⟩, ⟨c.readExact?_write_iff, c.read?_write_iff⟩,
    p.readExact?_write_iff, p.read?_write_iff, ?_⟩
  rw [Telemetry.ofMessage?_messageOf]
  exact p.read?_write_iff

namespace TelemetryPacket

/-- A packet of finite numbers, with the time of a clock. -/
def timed : TelemetryPacket :=
  ⟨2, 1744949106.4788737, 17, ⟨0x41BC0000⟩, ⟨0x3F800000⟩, ⟨0⟩, 40.0, 5.0, [.highCap]⟩

/-- A packet of finite numbers, with the one single that no exact reader keeps. -/
def faint : TelemetryPacket :=
  { timed with epochTime := 0.0, batteryVoltage := .ofParts false Decimal.excusedMagnitude }

theorem finite_packets_changed :
    (timed.numbers.all Float.isFinite = true ∧ timed.singles.all Single.isFinite = true ∧
      Wire.read? (Wire.write timed) ≠ some timed ∧
      (Utf8.decode? (Telemetry.messageOf timed)).bind Telemetry.ofMessage? ≠ some timed) ∧
    faint.numbers.all Float.isFinite = true ∧ faint.singles.all Single.isFinite = true ∧
      Wire.readExact? (Wire.write faint) ≠ some faint := by
  -- The receiver's time is a unit of its last bit too early.
  have early : Json.received 1744949106.4788737 ≠ 1744949106.4788737 := by decide +kernel
  have changed : Wire.read? (Wire.write timed) ≠ some timed := fun same =>
    early ((timed.read?_write_iff.mp same).unchanged _ List.mem_cons_self).2
  refine ⟨⟨by decide +kernel, by decide +kernel, changed, ?_⟩, by decide +kernel, by decide +kernel, fun same => ?_⟩
  · rwa [Telemetry.ofMessage?_messageOf]
  · exact ((faint.readExact?_write_iff.mp same).usual _ List.mem_cons_self).2 (by decide +kernel)

end TelemetryPacket

end Onboard
