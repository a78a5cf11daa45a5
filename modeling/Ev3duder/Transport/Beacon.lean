import Ev3duder.Transport.Discovery

namespace Ev3duder

open Data

/-! # The beacon of the bridge -/

/-- What `cNetTransmitBeacon` announces. -/
structure Beacon where
  serial : CString
  port : UInt16
  name : CString
  serialWord : serial.bytes ≠ [] ∧ ∀ byte ∈ serial.bytes, isSpace byte = false
  serialFits : serial.bytes.length ≤ 14
  nameFits : 1 ≤ name.bytes.length ∧ name.bytes.length ≤ 60
  namePrintable : ∀ byte ∈ name.bytes, 32 ≤ byte ∧ byte ≤ 126

def decimalChar (digit : Nat) : UInt8 := UInt8.ofNat (48 + digit)

def Beacon.digits (beacon : Beacon) : Bytes := (numeral 10 beacon.port.toNat).map decimalChar

/-- The datagram that `sprintf` makes of it. -/
def Beacon.text (beacon : Beacon) : Bytes :=
  ascii "Serial-Number: " ++ beacon.serial.bytes ++ ascii "\r\nPort: " ++ beacon.digits ++
    ascii "\r\nName: " ++ beacon.name.bytes ++ ascii "\r\nProtocol: EV3\r\n"

/-- The values the bridge passes: `"31337"`, `TCP_PORT` and `BRICK_NAME`. -/
def bridgeBeacon : Beacon where
  serial := ⟨ascii "31337", by decide +kernel⟩
  port := 5555
  name := ⟨ascii "USB Bridge", by decide +kernel⟩
  serialWord := by decide +kernel
  serialFits := by decide +kernel
  nameFits := by decide +kernel
  namePrintable := by decide +kernel

theorem factoryName_noNul : 0 ∉ ascii "EV3" := by decide +kernel

/-- A brick that nobody has given a name. -/
def factoryBeacon : Beacon where
  serial := ⟨ascii "001653abcdef", by decide +kernel⟩
  port := 5555
  name := ⟨ascii "EV3", factoryName_noNul⟩
  serialWord := by decide +kernel
  serialFits := by decide +kernel
  nameFits := by decide +kernel
  namePrintable := by decide +kernel

theorem scanWord_append {word rest : Bytes} (nonempty : word ≠ []) (plain : ∀ byte ∈ word, isSpace byte = false) :
    scanWord (word ++ ([13, 10] ++ rest)) = some (.word word, [13, 10] ++ rest) := by
  have read : readWord isSpace (word ++ ([13, 10] ++ rest)) = some (word, [13, 10] ++ rest) :=
    readWord_append nonempty plain fun char starts => by cases starts; decide
  rw [scanWord, read, Option.map_some]

theorem decimalDigit_char : ∀ digit < 10, decimalDigit (decimalChar digit) = some digit := by decide

theorem decimalChar_plain : ∀ digit < 10,
    isSpace (decimalChar digit) = false ∧ decimalChar digit ≠ 45 ∧ decimalChar digit ≠ 43 := by
  decide

theorem scanUnsigned_numeral {number : Nat} (small : number < 2 ^ 64) (rest : Bytes) :
    scanUnsigned ((numeral 10 number).map decimalChar ++ ([13, 10] ++ rest)) =
      some (.number (UInt32.ofNat number), [13, 10] ++ rest) := by
  obtain ⟨first, more, front⟩ := List.exists_cons_of_ne_nil (numeral_nonempty 10 number)
  have digit : first < 10 := numeral_small (by decide) number (by rw [front]; exact List.mem_cons_self)
  obtain ⟨plain, minus, plus⟩ := decimalChar_plain first digit
  have read := @readDigits_numeral UInt8 ([13, 10] ++ rest) 10 decimalDigit decimalChar decimalDigit_char
    (by decide) number fun char starts => by cases starts; decide
  rw [front, List.map_cons, List.cons_append] at read ⊢
  rw [scanUnsigned, List.dropWhile_cons_of_neg (by simp [plain]), hexSign_plain _ plus minus]
  simp only [read, Option.map_some]
  rw [if_neg (Nat.not_le.mpr small)]
  rfl

/-- A line of the beacon: a label, a blank, what is announced, and the end of the line. -/
theorem scan_field {conversion : Bytes → Option (BeaconValue × Bytes)} {body rest : Bytes} {value : BeaconValue}
    (label : Bytes) (format : List (Directive UInt8 BeaconValue)) (nonempty : body ≠ [])
    (starts : ∀ char, body.head? = some char → isSpace char = false)
    (converted : conversion (body ++ ([13, 10] ++ rest)) = some (value, [13, 10] ++ rest))
    (ends : ∀ char, rest.head? = some char → isSpace char = false) :
    scan isSpace (Directive.text label ++ .blanks :: .convert conversion :: .blanks :: format)
      (label ++ ([32] ++ (body ++ ([13, 10] ++ rest)))) = value :: scan isSpace format rest := by
  have front : ∀ char, (body ++ ([13, 10] ++ rest)).head? = some char → isSpace char = false := by
    obtain ⟨first, more, rfl⟩ := List.exists_cons_of_ne_nil nonempty
    exact starts
  rw [scan_text, scan_blanks (by simp [isSpace]) front, scan_convert converted, scan_blanks (by simp [isSpace]) ends]

theorem beacon_lines (beacon : Beacon) : beacon.text =
    ascii "Serial-Number:" ++ ([32] ++ (beacon.serial.bytes ++ ([13, 10] ++
      (ascii "Port:" ++ ([32] ++ (beacon.digits ++ ([13, 10] ++
        (ascii "Name:" ++ ([32] ++ (beacon.name.bytes ++ ([13, 10] ++
          (ascii "Protocol:" ++ ([32] ++ (ascii "EV3" ++ ([13, 10] ++ []))))))))))))))) := by
  have serial : ascii "Serial-Number: " = ascii "Serial-Number:" ++ [32] := by decide +kernel
  have port : ascii "\r\nPort: " = [13, 10] ++ ascii "Port:" ++ [32] := by decide +kernel
  have name : ascii "\r\nName: " = [13, 10] ++ ascii "Name:" ++ [32] := by decide +kernel
  have protocol : ascii "\r\nProtocol: EV3\r\n" = [13, 10] ++ ascii "Protocol:" ++ [32] ++ ascii "EV3" ++ [13, 10] := by
    decide +kernel
  simp only [Beacon.text, serial, port, name, protocol, List.append_assoc, List.append_nil]

theorem starts_ascii {label : String} {first : UInt8} {more rest : Bytes} (front : ascii label = first :: more)
    (plain : isSpace first = false) : ∀ char, (ascii label ++ rest).head? = some char → isSpace char = false := by
  intro char starts
  rw [front] at starts
  cases starts
  exact plain

theorem starts_plain {bytes : Bytes} (plain : ∀ byte ∈ bytes, isSpace byte = false) :
    ∀ char, bytes.head? = some char → isSpace char = false :=
  fun char starts => plain char (List.mem_of_mem_head? starts)

/-- Up to its name a beacon always reads. -/
theorem scan_beacon (beacon : Beacon) (rest : Bytes) :
    scan isSpace beaconFormat (ascii "Serial-Number:" ++ ([32] ++ (beacon.serial.bytes ++ ([13, 10] ++
      (ascii "Port:" ++ ([32] ++ (beacon.digits ++ ([13, 10] ++ (ascii "Name:" ++ rest))))))))) =
      .word beacon.serial.bytes :: .number (UInt32.ofNat beacon.port.toNat) ::
        scan isSpace nameFormat (ascii "Name:" ++ rest) := by
  obtain ⟨nonempty, plain⟩ := beacon.serialWord
  have small : beacon.port.toNat < 2 ^ 64 := Nat.lt_trans beacon.port.toNat_lt (by decide)
  have digits : ∀ char, beacon.digits.head? = some char → isSpace char = false := by
    refine starts_plain fun byte member => ?_
    obtain ⟨digit, inside, rfl⟩ := List.mem_map.mp member
    exact (decimalChar_plain digit (numeral_small (by decide) _ inside)).1
  rw [beaconFormat, scan_field _ _ nonempty (starts_plain plain) (scanWord_append nonempty plain)
      (starts_ascii rfl (by decide)), portFormat,
    scan_field _ _ (by simp [Beacon.digits, numeral_nonempty]) digits (scanUnsigned_numeral small _)
      (starts_ascii rfl (by decide))]

theorem isSpace_printable {byte : UInt8} (printable : 32 ≤ byte) : isSpace byte = true ↔ byte = 32 := by
  rw [isSpace, decide_eq_true_iff]
  rw [UInt8.le_iff_toNat_le] at printable
  refine ⟨fun blank => blank.resolve_right fun control => ?_, Or.inl⟩
  have high := UInt8.le_iff_toNat_le.mp control.2
  exact absurd (Nat.le_trans printable high) (by decide)

theorem Beacon.blank (beacon : Beacon) {byte : UInt8} (member : byte ∈ beacon.name.bytes) :
    isSpace byte = true ↔ byte = 32 :=
  isSpace_printable (beacon.namePrintable byte member).1

/-- A name without a blank reads back, and so does the last line. -/
theorem scan_name {beacon : Beacon} (whole : 32 ∉ beacon.name.bytes) :
    scan isSpace nameFormat (ascii "Name:" ++ ([32] ++ (beacon.name.bytes ++ ([13, 10] ++
      (ascii "Protocol:" ++ ([32] ++ (ascii "EV3" ++ ([13, 10] ++ [])))))))) =
      [.word beacon.name.bytes, .word (ascii "EV3")] := by
  have nonempty : beacon.name.bytes ≠ [] := List.length_pos_iff.mp beacon.nameFits.1
  have plain : ∀ byte ∈ beacon.name.bytes, isSpace byte = false := by
    intro byte member
    rw [Bool.eq_false_iff, ne_eq, beacon.blank member]
    intro same
    subst same
    exact whole member
  have last : scanWord (ascii "EV3" ++ ([13, 10] ++ [])) = some (.word (ascii "EV3"), [13, 10] ++ []) :=
    scanWord_append (by decide +kernel) (by decide +kernel)
  rw [nameFormat, scan_field _ _ nonempty (starts_plain plain) (scanWord_append nonempty plain)
      (starts_ascii rfl (by decide)), protocolFormat,
    scan_field _ [] (by decide +kernel) (starts_plain (by decide +kernel)) last (by simp), scan]

/-- Of any other name `%s` takes a word, which is not it. -/
theorem scan_blank_name {beacon : Beacon} (blank : 32 ∈ beacon.name.bytes) {tail : Bytes}
    (more : ∃ byte ∈ tail, isSpace byte = false) (noNul : 0 ∉ tail) (short : tail.length ≤ 30) :
    ∃ word later, scan isSpace nameFormat (ascii "Name:" ++ ([32] ++ (beacon.name.bytes ++ tail))) =
      .word word :: later ∧ word ≠ beacon.name.bytes ∧ 0 ∉ word ∧ word.length < 96 ∧ later.length ≤ 1 := by
  obtain ⟨byte, member, plain⟩ := more
  obtain ⟨word, rest, read⟩ := @readWord_some UInt8 isSpace ([32] ++ (beacon.name.bytes ++ tail)) byte
    (by simp [member]) plain
  obtain ⟨blanks, split⟩ := readWord_split read
  refine ⟨word, scan isSpace (.blanks :: protocolFormat) rest, ?_, ?_, ?_, ?_, scan_length _ _⟩
  · have converted : scanWord (([32] ++ (beacon.name.bytes ++ tail)).dropWhile isSpace) = some (.word word, rest) := by
      rw [scanWord, readWord_dropWhile, read, Option.map_some]
    rw [nameFormat, scan_text, scan, scan_convert converted]
  · intro same
    subst same
    cases (readWord_plain read).2 32 blank
  · intro nul
    have inside : 0 ∈ [32] ++ (beacon.name.bytes ++ tail) := by simp [split, nul]
    simp [beacon.name.noNul, noNul] at inside
  · have length := congrArg List.length split
    have name := beacon.nameFits.2
    simp only [List.length_append, List.length_singleton] at length
    omega

theorem digits_length (beacon : Beacon) : beacon.digits.length ≤ 5 := by
  rw [Beacon.digits, List.length_map]
  exact numeral_length (by decide) (by decide) (Nat.lt_trans beacon.port.toNat_lt (by decide))

theorem beacon_fits (beacon : Beacon) : beacon.text.length ≤ 127 := by
  have serial := beacon.serialFits
  have name := beacon.nameFits
  have digits := digits_length beacon
  have labels : (ascii "Serial-Number: ").length + (ascii "\r\nPort: ").length + (ascii "\r\nName: ").length +
      (ascii "\r\nProtocol: EV3\r\n").length = 48 := by decide +kernel
  simp only [Beacon.text, List.length_append]
  omega

theorem digits_noNul (beacon : Beacon) : 0 ∉ beacon.digits := by
  intro member
  obtain ⟨digit, inside, zero⟩ := List.mem_map.mp member
  have small : ∀ digit < 10, decimalChar digit ≠ 0 := by decide
  exact small digit (numeral_small (by decide) _ inside) zero

theorem beacon_noNul (beacon : Beacon) : 0 ∉ beacon.text := by
  have labels : 0 ∉ ascii "Serial-Number: " ∧ 0 ∉ ascii "\r\nPort: " ∧ 0 ∉ ascii "\r\nName: " ∧
      0 ∉ ascii "\r\nProtocol: EV3\r\n" := by decide +kernel
  simp [Beacon.text, beacon.serial.noNul, beacon.name.noNul, digits_noNul, labels]

/-- A datagram without a NUL that fits the buffer is what `sscanf` gets. -/
theorem beaconValues_text {datagram : Bytes} (fits : datagram.length ≤ datagramSize) (noNul : 0 ∉ datagram) :
    beaconValues datagram = scan isSpace beaconFormat datagram := by
  have whole := cstr_terminated ⟨datagram, noNul⟩ []
  rw [beaconValues, heard, List.take_of_length_le fits, whole]

theorem beaconValues_plain {beacon : Beacon} (whole : 32 ∉ beacon.name.bytes) :
    beaconValues beacon.text = [.word beacon.serial.bytes, .number (UInt32.ofNat beacon.port.toNat),
      .word beacon.name.bytes, .word (ascii "EV3")] := by
  rw [beaconValues_text (Nat.le_succ_of_le (beacon_fits beacon)) (beacon_noNul beacon), beacon_lines, scan_beacon,
    scan_name whole]

theorem beaconValues_blank {beacon : Beacon} (blank : 32 ∈ beacon.name.bytes) :
    ∃ word later, beaconValues beacon.text =
        .word beacon.serial.bytes :: .number (UInt32.ofNat beacon.port.toNat) :: .word word :: later ∧
      word ≠ beacon.name.bytes ∧ 0 ∉ word ∧ word.length < 96 ∧ later.length ≤ 1 := by
  obtain ⟨word, later, values, other⟩ := @scan_blank_name beacon blank
    ([13, 10] ++ (ascii "Protocol:" ++ ([32] ++ (ascii "EV3" ++ ([13, 10] ++ []))))) (by decide +kernel)
    (by decide +kernel) (by decide +kernel)
  refine ⟨word, later, ?_, other⟩
  rw [beaconValues_text (Nat.le_succ_of_le (beacon_fits beacon)) (beacon_noNul beacon), beacon_lines, scan_beacon,
    values]

/-- The loop is left on the beacon, and what it announced is in the handle and in the request. -/
structure BeaconRead (beacon : Beacon) (outcome : Search × Discovery) : Prop where
  found : outcome.1 = .found beacon.text
  serial : outcome.2.handle.load serialField.offset (beacon.serial.bytes.length + 1) = beacon.serial.bytes ++ [0]
  port : outcome.2.handle.load portField.offset 4 = leBytes 4 beacon.port.toNat
  name : outcome.2.handle.load nameField.offset (beacon.name.bytes.length + 1) = beacon.name.bytes ++ [0]
  protocol : outcome.2.handle.load protocolField.offset 4 = ascii "EV3" ++ [0]
  request : outcome.2.request = ascii "GET /target?sn=" ++ beacon.serial.bytes ++ ascii " VMTP1.0\nProtocol: EV3"

theorem beacon_request {state : Discovery} {beacon : Beacon}
    (serial : state.handle.load serialField.offset (beacon.serial.bytes.length + 1) = beacon.serial.bytes ++ [0])
    (protocol : state.handle.load protocolField.offset 4 = ascii "EV3" ++ [0]) :
    state.request = ascii "GET /target?sn=" ++ beacon.serial.bytes ++ ascii " VMTP1.0\nProtocol: EV3" := by
  have fits := beacon.serialFits
  have first : state.handle.cstring serialField.offset (handleSize - serialField.offset) = beacon.serial.bytes :=
    cstring_held serial beacon.serial.noNul (Nat.lt_of_le_of_lt fits (by decide))
  have second : state.handle.cstring protocolField.offset (handleSize - protocolField.offset) = ascii "EV3" :=
    cstring_held protocol (by decide +kernel) (by decide +kernel)
  have words : ascii " VMTP1.0\nProtocol: EV3" = ascii " VMTP1.0\nProtocol: " ++ ascii "EV3" := by decide +kernel
  have labels : (ascii "GET /target?sn=").length + (ascii " VMTP1.0\nProtocol: ").length +
      (ascii "EV3").length = 37 := by decide +kernel
  rw [Discovery.request, first, second, words, ← List.append_assoc]
  generalize whole : ascii "GET /target?sn=" ++ beacon.serial.bytes ++ ascii " VMTP1.0\nProtocol: " ++
    ascii "EV3" = line
  have short : line.length ≤ 127 := by
    simp only [← whole, List.length_append]
    omega
  simp only [List.take_of_length_le (show line.length ≤ datagramSize - 1 from short)]
  rw [Memory.load_store (by rw [List.length_append]; omega), List.drop_zero, List.take_left]

theorem beacon_held {beacon : Beacon} (whole : 32 ∉ beacon.name.bytes) (state : Discovery) :
    BeaconRead beacon (.found beacon.text, state.hear beacon.text) := by
  have values := beaconValues_plain whole
  have serialFits := beacon.serialFits
  have nameFits := beacon.nameFits.2
  have protocolFits : (ascii "EV3").length = 3 := by decide +kernel
  have fit : ValuesFit beacon.text := by
    simp [ValuesFit, values, beaconFields, BeaconValue.stored, serialField, portField, nameField, protocolField]
    omega
  have held := hear_holds fit state
  simp only [values, beaconFields, List.zip_cons_cons, List.zip_nil_right, List.forall_mem_cons, BeaconValue.stored,
    List.length_append, List.length_singleton, leBytes_length, protocolFits] at held
  obtain ⟨serial, port, name, protocol, _⟩ := held
  have number : (UInt32.ofNat beacon.port.toNat).toNat = beacon.port.toNat :=
    Nat.mod_eq_of_lt (Nat.lt_trans beacon.port.toNat_lt (by decide))
  rw [number] at port
  exact ⟨rfl, serial, port, name, protocol, beacon_request serial protocol⟩

/-- The serial is always there, and in place of a name with a blank there is another one. -/
theorem beacon_misheard {beacon : Beacon} (blank : 32 ∈ beacon.name.bytes) (state : Discovery) :
    (state.hear beacon.text).handle.load serialField.offset (beacon.serial.bytes.length + 1) =
        beacon.serial.bytes ++ [0] ∧
      (state.hear beacon.text).handle.load nameField.offset (beacon.name.bytes.length + 1) ≠
        beacon.name.bytes ++ [0] := by
  obtain ⟨word, later, values, other, noNul, short, _⟩ := beaconValues_blank blank
  have serialFits := beacon.serialFits
  have handle : (state.hear beacon.text).handle = storeValues ((serialField, .word beacon.serial.bytes) ::
      (portField, .number (UInt32.ofNat beacon.port.toNat)) :: (nameField, .word word) ::
        [protocolField].zip later) state.handle := by
    simp only [Discovery.hear, values]
    rfl
  have last : ∀ pair ∈ [protocolField].zip later, pair.1 = protocolField := fun pair member =>
    List.mem_singleton.mp (List.of_mem_zip member).1
  rw [handle]
  constructor
  · have held := @storeValues_load serialField (.word beacon.serial.bytes) []
      ((portField, .number (UInt32.ofNat beacon.port.toNat)) :: (nameField, .word word) :: [protocolField].zip later)
      (by
        simp only [List.forall_mem_cons, BeaconValue.stored, List.length_append, List.length_singleton]
        refine ⟨by simp only [serialField, portField]; omega, by simp only [serialField, nameField]; omega, ?_⟩
        intro pair member
        rw [last pair member]
        simp only [serialField, protocolField]
        omega) state.handle
    simpa [BeaconValue.stored] using held
  · intro same
    have held := @storeValues_load nameField (.word word)
      [(serialField, .word beacon.serial.bytes), (portField, .number (UInt32.ofNat beacon.port.toNat))]
      ([protocolField].zip later)
      (by
        intro pair member
        rw [last pair member]
        simp only [nameField, protocolField, BeaconValue.stored, List.length_append, List.length_singleton]
        omega) state.handle
    simp only [BeaconValue.stored, List.length_append, List.length_singleton] at held
    exact other (cstring_unique held noNul same beacon.name.noNul)

/-- What the bridge announces reads back, whatever the handle held before, when the name has no blank in it. -/
theorem beacon_round_trip_iff {beacon : Beacon} {wanted : Option CString}
    (asked : wanted = none ∨ wanted = some beacon.serial) (later : List (Option Bytes)) (state : Discovery) :
    BeaconRead beacon (discover wanted (some beacon.text :: later) state) ↔ 32 ∉ beacon.name.bytes := by
  have ends : (state.hear beacon.text).handle.load serialField.offset (beacon.serial.bytes.length + 1) =
      beacon.serial.bytes ++ [0] →
      discover wanted (some beacon.text :: later) state = (.found beacon.text, state.hear beacon.text) := by
    intro serial
    apply discover_found later
    rcases asked with rfl | rfl
    · rfl
    · exact decide_eq_true serial
  constructor
  · intro read blank
    obtain ⟨serial, misread⟩ := beacon_misheard blank state
    rw [ends serial] at read
    exact misread read.name
  · intro whole
    have held := beacon_held whole state
    rw [ends held.serial]
    exact held

theorem beacon_round_trip_plain :
    BeaconRead factoryBeacon (discover (some factoryBeacon.serial) [some factoryBeacon.text]
      ⟨fun _ => 0, fun _ => 0, []⟩) :=
  (beacon_round_trip_iff (Or.inr rfl) [] _).mpr (by decide +kernel)

/-- The name the bridge itself announces has a blank: all that is read of it is `USB`. -/
theorem bridgeBeacon_misread :
    ¬ BeaconRead bridgeBeacon (discover none [some bridgeBeacon.text] ⟨fun _ => 0, fun _ => 0, []⟩) :=
  fun read => absurd read.name (by decide +kernel)

end Ev3duder
