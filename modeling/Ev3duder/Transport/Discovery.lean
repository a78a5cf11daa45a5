import Ev3duder.Bridge.Client
import Ev3duder.Commands.Vm
import Ev3duder.Data.Scan

namespace Ev3duder

open Data

/-! # How `tcp_open` finds a brick

A brick broadcasts what it is called and where it listens.  `tcp_open` waits for such datagrams and takes them apart
with `sscanf`, straight into the fields of its handle.
-/

inductive BeaconValue where
  | word (bytes : Bytes)
  | number (value : UInt32)
deriving DecidableEq, Repr

def decimalDigit (byte : UInt8) : Option Nat := if 48 ≤ byte ∧ byte ≤ 57 then some (byte.toNat - 48) else none

def scanWord (text : Bytes) : Option (BeaconValue × Bytes) :=
  (readWord isSpace text).map fun read => (.word read.1, read.2)

/-- `%u` takes what `strtoul` makes of the digits, which is the largest `unsigned long` when they say more. -/
def scanUnsigned (text : Bytes) : Option (BeaconValue × Bytes) :=
  let (negative, digits) := hexSign (text.dropWhile isSpace)
  (readDigits 10 decimalDigit digits).map fun read =>
    let value := UInt32.ofNat read.1
    (.number (if 2 ^ 64 ≤ read.1 then 0xFFFFFFFF else if negative then 0 - value else value), read.2)

def protocolFormat : List (Directive UInt8 BeaconValue) :=
  Directive.text (ascii "Protocol:") ++ [.blanks, .convert scanWord, .blanks]

def nameFormat : List (Directive UInt8 BeaconValue) :=
  Directive.text (ascii "Name:") ++ .blanks :: .convert scanWord :: .blanks :: protocolFormat

def portFormat : List (Directive UInt8 BeaconValue) :=
  Directive.text (ascii "Port:") ++ .blanks :: .convert scanUnsigned :: .blanks :: nameFormat

def beaconFormat : List (Directive UInt8 BeaconValue) :=
  Directive.text (ascii "Serial-Number:") ++ .blanks :: .convert scanWord :: .blanks :: portFormat

/-- A field of `struct tcp_handle` in the build for POSIX. -/
structure HandleField where
  offset : Nat
  size : Nat

def handleSize : Nat := 180

def serialField : HandleField := ⟨8, 15⟩
def portField : HandleField := ⟨72, 4⟩
def nameField : HandleField := ⟨76, 96⟩
def protocolField : HandleField := ⟨172, 8⟩

/-- What `sscanf` gets pointers to, in order. -/
def beaconFields : List HandleField := [serialField, portField, nameField, protocolField]

def BeaconValue.stored : BeaconValue → Bytes
  | .word bytes => bytes ++ [0]
  | .number value => leBytes 4 value.toNat

/-- The stores of the conversions, one after the other. -/
def storeValues : List (HandleField × BeaconValue) → Memory → Memory
  | [], handle => handle
  | (field, value) :: rest, handle => storeValues rest (handle.storeAt field.offset value.stored)

def datagramSize : Nat := 128

/-- A run of stores from the start of an object: the size of the object, and up to where they went. -/
structure Stored where
  size : Nat
  upto : Nat
deriving DecidableEq, Repr

structure Discovery where
  buffer : Memory
  handle : Memory
  stores : List Stored

/-- What `recvfrom` puts into `buffer` of a datagram. -/
def heard (datagram : Bytes) : Bytes := datagram.take datagramSize

/-- What `sscanf` converts of it. -/
def beaconValues (datagram : Bytes) : List BeaconValue :=
  scan isSpace beaconFormat (cstr (heard datagram ++ [0])).bytes

/-- One pass of the loop: `recvfrom`, the NUL behind what was received, and `sscanf`. -/
def Discovery.hear (state : Discovery) (datagram : Bytes) : Discovery where
  buffer := state.buffer.store (heard datagram ++ [0])
  handle := storeValues (beaconFields.zip (beaconValues datagram)) state.handle
  stores := state.stores ++ [⟨datagramSize, (heard datagram).length⟩, ⟨datagramSize, (heard datagram).length + 1⟩] ++
    (beaconFields.zip (beaconValues datagram)).map fun pair => ⟨pair.1.size, pair.2.stored.length⟩

/-- The condition that ends the loop: no serial was asked for, or `strcmp` finds it in the handle. -/
def Discovery.satisfied (state : Discovery) (serial : Option CString) : Bool :=
  match serial with
  | none => true
  | some serial => state.handle.load serialField.offset (serial.bytes.length + 1) = serial.bytes ++ [0]

inductive Search where
  /-- The loop was left on this datagram. -/
  | found (datagram : Bytes)
  | failed
  | waiting
deriving DecidableEq, Repr

/-- The discovery loop, for what `recvfrom` brings in the coming calls: a datagram, or nothing within the time. -/
def discover (serial : Option CString) : List (Option Bytes) → Discovery → Search × Discovery
  | [], state => (.waiting, state)
  | none :: _, state => (.failed, state)
  | some datagram :: later, state =>
      if (state.hear datagram).satisfied serial then (.found datagram, state.hear datagram)
      else discover serial later (state.hear datagram)

/-- The request that follows, with the strings the handle holds by then: `sendto` gets as many bytes of `buffer` as
`snprintf` says the line has. -/
def Discovery.request (state : Discovery) : Bytes :=
  let serial := state.handle.cstring serialField.offset (handleSize - serialField.offset)
  let protocol := state.handle.cstring protocolField.offset (handleSize - protocolField.offset)
  let line := ascii "GET /target?sn=" ++ serial ++ ascii " VMTP1.0\nProtocol: " ++ protocol
  (state.buffer.store (line.take (datagramSize - 1) ++ [0])).load 0 line.length

theorem cstring_unique {memory : Memory} {offset : Nat} {first second : Bytes}
    (held : memory.load offset (first.length + 1) = first ++ [0]) (noNul : 0 ∉ first)
    (other : memory.load offset (second.length + 1) = second ++ [0]) (noNulOther : 0 ∉ second) : first = second := by
  induction first generalizing offset second with
  | nil =>
      cases second with
      | nil => rfl
      | cons byte second =>
          rw [Memory.load_succ, List.cons_append, List.cons.injEq] at other
          rw [Memory.load_succ, List.nil_append, List.cons.injEq] at held
          simp [← other.1, held.1] at noNulOther
  | cons byte first ih =>
      rw [List.length_cons, Memory.load_succ, List.cons_append, List.cons.injEq] at held
      cases second with
      | nil =>
          rw [Memory.load_succ, List.nil_append, List.cons.injEq] at other
          simp [← held.1, other.1] at noNul
      | cons next second =>
          rw [List.length_cons, Memory.load_succ, List.cons_append, List.cons.injEq] at other
          rw [← held.1, ← other.1, ih held.2 (by simp_all) other.2 (by simp_all)]

theorem cstring_held {memory : Memory} {offset room : Nat} {text : Bytes}
    (held : memory.load offset (text.length + 1) = text ++ [0]) (noNul : 0 ∉ text) (fits : text.length < room) :
    memory.cstring offset room = text := by
  induction text generalizing offset room with
  | nil =>
      rw [Memory.load_succ, List.nil_append, List.cons.injEq] at held
      obtain ⟨room, rfl⟩ := Nat.exists_eq_succ_of_ne_zero (Nat.ne_of_gt fits)
      rw [Memory.cstring, if_pos held.1]
  | cons byte text ih =>
      rw [List.length_cons, Memory.load_succ, List.cons_append, List.cons.injEq] at held
      obtain ⟨room, rfl⟩ := Nat.exists_eq_succ_of_ne_zero (Nat.ne_of_gt (Nat.zero_lt_of_lt fits))
      rw [List.mem_cons, not_or] at noNul
      rw [Memory.cstring, held.1, if_neg fun zero => noNul.1 zero.symm,
        ih held.2 noNul.2 (Nat.lt_of_succ_lt_succ fits)]

theorem storeAt_load_before {memory : Memory} {offset start count : Nat} (bytes : Bytes)
    (before : start + count ≤ offset) : (memory.storeAt offset bytes).load start count = memory.load start count := by
  apply List.map_congr_left
  intro index member
  have bound := List.mem_range.mp member
  exact Memory.storeAt_before bytes (by omega)

theorem storeValues_append (front back : List (HandleField × BeaconValue)) (handle : Memory) :
    storeValues (front ++ back) handle = storeValues back (storeValues front handle) := by
  induction front generalizing handle with
  | nil => rfl
  | cons pair front ih => exact ih _

/-- Stores further up leave what lies below them. -/
theorem storeValues_before {pairs : List (HandleField × BeaconValue)} {start count : Nat}
    (before : ∀ pair ∈ pairs, start + count ≤ pair.1.offset) (handle : Memory) :
    (storeValues pairs handle).load start count = handle.load start count := by
  induction pairs generalizing handle with
  | nil => rfl
  | cons pair pairs ih =>
      have later := ih (fun other member => before other (List.mem_cons_of_mem _ member))
      exact (later _).trans (storeAt_load_before _ (before pair List.mem_cons_self))

/-- A value that ends before the fields of the later ones is there in the end. -/
theorem storeValues_load {field : HandleField} {value : BeaconValue} (front : List (HandleField × BeaconValue))
    {back : List (HandleField × BeaconValue)}
    (before : ∀ pair ∈ back, field.offset + value.stored.length ≤ pair.1.offset) (handle : Memory) :
    (storeValues (front ++ (field, value) :: back) handle).load field.offset value.stored.length = value.stored := by
  rw [storeValues_append]
  exact (storeValues_before before _).trans Memory.storeAt_load

/-- The fields follow one another, so what fits its field stays there. -/
theorem storeValues_fit {pairs : List (HandleField × BeaconValue)}
    (apart : pairs.Pairwise fun first second => first.1.offset + first.1.size ≤ second.1.offset)
    (fit : ∀ pair ∈ pairs, pair.2.stored.length ≤ pair.1.size) (handle : Memory) :
    ∀ pair ∈ pairs, (storeValues pairs handle).load pair.1.offset pair.2.stored.length = pair.2.stored := by
  intro pair member
  obtain ⟨field, value⟩ := pair
  obtain ⟨front, back, rfl⟩ := List.append_of_mem member
  have behind := (List.pairwise_cons.mp (List.pairwise_append.mp apart).2.1).1
  have inside := fit _ member
  exact storeValues_load front (fun pair later => Nat.le_trans (by simpa using inside) (behind pair later)) handle

theorem beaconFields_apart (values : List BeaconValue) :
    (beaconFields.zip values).Pairwise fun first second => first.1.offset + first.1.size ≤ second.1.offset := by
  have apart : beaconFields.Pairwise fun first second => first.offset + first.size ≤ second.offset := by decide
  generalize beaconFields = fields at apart
  induction apart generalizing values with
  | nil => exact List.Pairwise.nil
  | cons below _ ih =>
      cases values with
      | nil => exact List.Pairwise.nil
      | cons value values =>
          exact List.Pairwise.cons (fun pair member => below _ (List.of_mem_zip member).1) (ih values)

/-- Every value converted of the datagram fits the field it goes to. -/
def ValuesFit (datagram : Bytes) : Prop :=
  ∀ pair ∈ beaconFields.zip (beaconValues datagram), pair.2.stored.length ≤ pair.1.size

theorem hear_holds {datagram : Bytes} (fit : ValuesFit datagram) (state : Discovery) :
    ∀ pair ∈ beaconFields.zip (beaconValues datagram),
      (state.hear datagram).handle.load pair.1.offset pair.2.stored.length = pair.2.stored :=
  storeValues_fit (beaconFields_apart _) fit state.handle

theorem discover_found {wanted : Option CString} {datagram : Bytes} {state : Discovery} (later : List (Option Bytes))
    (satisfied : (state.hear datagram).satisfied wanted = true) :
    discover wanted (some datagram :: later) state = (.found datagram, state.hear datagram) := by
  rw [discover, if_pos satisfied]

/-- Every store stayed inside its object, and a search that was left holds all of what its last datagram said. -/
structure DiscoveryRobust (outcome : Search × Discovery) : Prop where
  inside : ∀ store ∈ outcome.2.stores, store.upto ≤ store.size
  complete : ∀ datagram, outcome.1 = .found datagram →
    (beaconValues datagram).length = beaconFields.length ∧
      ∀ pair ∈ beaconFields.zip (beaconValues datagram),
        outcome.2.handle.load pair.1.offset pair.2.stored.length = pair.2.stored

/-- A datagram ends the search when it names the serial that is looked for.  One that `sscanf` converts nothing of ends
it when the serial was in the handle before. -/
def endsSearch (serial : Option CString) (before : Bool) (values : List BeaconValue) : Bool :=
  match serial, values with
  | none, _ => true
  | some _, [] => before
  | some serial, value :: _ => value = .word serial.bytes

/-- Each datagram that is listened to leaves room for the NUL behind it and has no word too long for its field, and the
one that ends the search has all four values. -/
def SearchSafe (serial : Option CString) : Bool → List (Option Bytes) → Prop
  | _, [] => True
  | _, none :: _ => True
  | before, some datagram :: later =>
      (heard datagram).length < datagramSize ∧ ValuesFit datagram ∧
        if endsSearch serial before (beaconValues datagram) then
          (beaconValues datagram).length = beaconFields.length
        else SearchSafe serial false later

/-- What is converted first is the serial, a string without a NUL. -/
theorem beaconValues_serial (datagram : Bytes) : beaconValues datagram = [] ∨
    ∃ word later, beaconValues datagram = .word word :: later ∧ 0 ∉ word := by
  have noNul := (cstr (heard datagram ++ [0])).noNul
  rw [beaconValues]
  generalize (cstr (heard datagram ++ [0])).bytes = text at noNul
  rcases @scan_text_cases UInt8 BeaconValue isSpace _ (ascii "Serial-Number:")
    (.blanks :: .convert scanWord :: .blanks :: portFormat) text with none | ⟨rest, rfl, same⟩
  · exact Or.inl none
  · rw [beaconFormat, same, scan]
    cases read : readWord isSpace (rest.dropWhile isSpace) with
    | none => exact Or.inl (by rw [scan, scanWord, read]; rfl)
    | some pair =>
        obtain ⟨word, behind⟩ := pair
        have converted : scanWord (rest.dropWhile isSpace) = some (.word word, behind) := by
          rw [scanWord, read, Option.map_some]
        refine Or.inr ⟨word, _, scan_convert converted, fun nul => noNul (List.mem_append_right _ ?_)⟩
        obtain ⟨blanks, split⟩ := readWord_split read
        exact (List.dropWhile_sublist isSpace).subset (by simp [split, nul])

theorem hear_satisfied {datagram : Bytes} (fit : ValuesFit datagram) (serial : Option CString) (state : Discovery) :
    (state.hear datagram).satisfied serial =
      endsSearch serial (state.satisfied serial) (beaconValues datagram) := by
  cases serial with
  | none => rfl
  | some serial =>
      rcases beaconValues_serial datagram with none | ⟨word, later, values, noNul⟩
      · simp only [Discovery.satisfied, Discovery.hear, none, endsSearch, List.zip_nil_right, storeValues]
      · have held := hear_holds fit state (serialField, .word word) (by simp [values, beaconFields])
        simp only [BeaconValue.stored, List.length_append, List.length_singleton] at held
        simp only [Discovery.satisfied, endsSearch, values, decide_eq_decide, BeaconValue.word.injEq]
        constructor
        · intro same
          exact cstring_unique held noNul same serial.noNul
        · intro same
          subst same
          exact held

theorem hear_inside (state : Discovery) (datagram : Bytes) :
    (∀ store ∈ (state.hear datagram).stores, store.upto ≤ store.size) ↔
      (∀ store ∈ state.stores, store.upto ≤ store.size) ∧ (heard datagram).length < datagramSize ∧
        ValuesFit datagram := by
  have room : (heard datagram).length ≤ datagramSize := List.length_take_le _ _
  simp only [Discovery.hear, List.forall_mem_append, List.forall_mem_cons, List.forall_mem_map, ValuesFit]
  simp [room, and_assoc]

theorem discover_stores (serial : Option CString) (incoming : List (Option Bytes)) (state : Discovery) :
    ∀ store ∈ state.stores, store ∈ (discover serial incoming state).2.stores := by
  induction incoming generalizing state with
  | nil => exact fun store member => member
  | cons datagram later ih =>
      cases datagram with
      | none => exact fun store member => member
      | some datagram =>
          intro store member
          have kept : store ∈ (state.hear datagram).stores :=
            List.mem_append_left _ (List.mem_append_left _ member)
          rw [discover]
          split
          · exact kept
          · exact ih _ store kept

theorem discover_robust {serial : Option CString} (incoming : List (Option Bytes)) {state : Discovery}
    (inside : ∀ store ∈ state.stores, store.upto ≤ store.size) :
    DiscoveryRobust (discover serial incoming state) ↔ SearchSafe serial (state.satisfied serial) incoming := by
  induction incoming generalizing state with
  | nil => exact ⟨fun _ => trivial, fun _ => ⟨inside, fun _ ends => by cases ends⟩⟩
  | cons datagram later ih =>
      cases datagram with
      | none => exact ⟨fun _ => trivial, fun _ => ⟨inside, fun _ ends => by cases ends⟩⟩
      | some datagram =>
          rw [SearchSafe, discover]
          by_cases fits : (heard datagram).length < datagramSize ∧ ValuesFit datagram
          · have hear := (hear_inside state datagram).mpr ⟨inside, fits⟩
            rw [← hear_satisfied fits.2]
            split
            · refine ⟨fun robust => ⟨fits.1, fits.2, (robust.complete datagram rfl).1⟩, fun safe => ⟨hear, ?_⟩⟩
              intro found same
              cases same
              exact ⟨safe.2.2, hear_holds fits.2 state⟩
            · rename_i going
              rw [ih hear, Bool.eq_false_iff.mpr going]
              exact ⟨fun safe => ⟨fits.1, fits.2, safe⟩, fun safe => safe.2.2⟩
          · have outside : ¬ ∀ store ∈ (state.hear datagram).stores, store.upto ≤ store.size := fun all =>
              fits ((hear_inside state datagram).mp all).2
            refine ⟨fun robust => absurd ?_ outside, fun safe => absurd ⟨safe.1, safe.2.1⟩ fits⟩
            intro store member
            refine robust.inside store ?_
            split
            · exact member
            · exact discover_stores _ _ _ store member

/-- The search is sound exactly as far as the datagrams it listens to are. -/
theorem discover_robust_iff (serial : Option CString) (incoming : List (Option Bytes)) (buffer handle : Memory) :
    DiscoveryRobust (discover serial incoming ⟨buffer, handle, []⟩) ↔
      SearchSafe serial (Discovery.satisfied ⟨buffer, handle, []⟩ serial) incoming :=
  discover_robust incoming fun _ none => absurd none List.not_mem_nil

/-- A datagram that fills the buffer, one with a serial of 15 characters, and one that says nothing. -/
theorem discover_trusts :
    ¬ DiscoveryRobust (discover none [some (List.replicate 128 65)] ⟨fun _ => 0, fun _ => 0, []⟩) ∧
    ¬ DiscoveryRobust (discover none [some (ascii "Serial-Number: 001653abcdef012")]
      ⟨fun _ => 0, fun _ => 0, []⟩) ∧
    ¬ DiscoveryRobust (discover none [some []] ⟨fun _ => 0, fun _ => 0, []⟩) := by
  refine ⟨fun robust => ?_, fun robust => ?_, fun robust => ?_⟩
  · exact absurd (robust.inside ⟨128, 129⟩ (by decide +kernel)) (by decide)
  · exact absurd (robust.inside ⟨15, 16⟩ (by decide +kernel)) (by decide)
  · exact absurd (robust.complete [] rfl).1 (by decide +kernel)

end Ev3duder
