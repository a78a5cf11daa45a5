import Ev3duder.Transport.Opening

namespace Ev3duder

open Data

/-! # Addresses as text

The build for Windows brings its own `inet_ntop` and `inet_pton`, which is made of `sscanf`.
-/

/-- `%hhu` keeps the lowest byte of what it reads. -/
def scanByte (text : Bytes) : Option (UInt8 × Bytes) :=
  let (negative, digits) := hexSign (text.dropWhile isSpace)
  (readDigits 10 decimalDigit digits).map fun read =>
    (if negative then 0 - UInt8.ofNat read.1 else UInt8.ofNat read.1, read.2)

def addressFormat : List (Directive UInt8 UInt8) :=
  [.convert scanByte, .literal 46, .convert scanByte, .literal 46, .convert scanByte, .literal 46, .convert scanByte]

def inetPton (src : CString) : Option UInt32 :=
  match scan isSpace addressFormat src.bytes with
  | [first, second, third, fourth] => some (UInt32.ofNat (leValue [first, second, third, fourth]))
  | _ => none

def byteText (byte : UInt8) : Bytes := (numeral 10 byte.toNat).map decimalChar

theorem scanByte_numeral (byte : UInt8) {rest : Bytes}
    (ends : ∀ char, rest.head? = some char → decimalDigit char = none) :
    scanByte (byteText byte ++ rest) = some (byte, rest) := by
  obtain ⟨first, more, front⟩ := List.exists_cons_of_ne_nil (numeral_nonempty 10 byte.toNat)
  have digit : first < 10 := numeral_small (by decide) byte.toNat (by rw [front]; exact List.mem_cons_self)
  obtain ⟨plain, minus, plus⟩ := decimalChar_plain first digit
  have read := @readDigits_numeral UInt8 rest 10 decimalDigit decimalChar decimalDigit_char (by decide) byte.toNat ends
  rw [byteText, front, List.map_cons, List.cons_append] at *
  rw [scanByte, List.dropWhile_cons_of_neg (by simp [plain]), hexSign_plain _ plus minus]
  simp only [read, Option.map_some]
  simp

theorem inetNtop_bytes (host : UInt32) : ∃ first second third fourth,
    leBytes 4 host.toNat = [first, second, third, fourth] ∧ inetNtop host =
      byteText first ++ (46 :: (byteText second ++ (46 :: (byteText third ++ (46 :: byteText fourth))))) := by
  refine ⟨_, _, _, _, rfl, ?_⟩
  simp only [inetNtop, leBytes, List.map_cons, List.map_nil, List.intercalate, List.intersperse, List.flatten_cons,
    List.flatten_nil, byteText, List.append_nil, List.cons_append, List.nil_append]

theorem byteText_noNul (byte : UInt8) : 0 ∉ byteText byte := by
  intro member
  obtain ⟨digit, inside, zero⟩ := List.mem_map.mp member
  have nonzero : ∀ digit < 10, decimalChar digit ≠ 0 := by decide
  exact nonzero digit (numeral_small (by decide) _ inside) zero

theorem inetNtop_noNul (host : UInt32) : 0 ∉ inetNtop host := by
  obtain ⟨first, second, third, fourth, _, text⟩ := inetNtop_bytes host
  rw [text]
  simp [byteText_noNul]

/-- Every address reads back, whatever comes behind it that is not one more digit. -/
theorem inetPton_inetNtop (host : UInt32) {text : CString} {rest : Bytes} (written : text.bytes = inetNtop host ++ rest)
    (ends : ∀ char, rest.head? = some char → decimalDigit char = none) : inetPton text = some host := by
  obtain ⟨first, second, third, fourth, bytes, texts⟩ := inetNtop_bytes host
  have dot (after : Bytes) : ∀ char, (46 :: after : Bytes).head? = some char → decimalDigit char = none := by
    rintro _ ⟨⟩
    decide
  have read : scan isSpace addressFormat text.bytes = [first, second, third, fourth] := by
    rw [written, texts]
    simp only [List.append_assoc, List.cons_append, addressFormat]
    rw [scan_convert (scanByte_numeral first (dot _)), scan, List.head?_cons, if_pos rfl, List.tail_cons,
      scan_convert (scanByte_numeral second (dot _)), scan, List.head?_cons, if_pos rfl, List.tail_cons,
      scan_convert (scanByte_numeral third (dot _)), scan, List.head?_cons, if_pos rfl, List.tail_cons,
      scan_convert (scanByte_numeral fourth ends), scan]
  have value : leValue [first, second, third, fourth] = host.toNat := by
    rw [← bytes, leValue_leBytes_of_lt host.toNat_lt]
  rw [inetPton, read]
  simp only [value, UInt32.ofNat_toNat]

theorem inetPton_inetNtop_port : inetPton ⟨ascii "192.168.0.23:5555", by decide +kernel⟩ = some 0x1700A8C0 :=
  inetPton_inetNtop 0x1700A8C0 (show ascii "192.168.0.23:5555" = inetNtop 0x1700A8C0 ++ ascii ":5555" by decide +kernel)
    (by rintro _ ⟨⟩; decide)

def TcpOpened.ip (opened : TcpOpened) : Bytes := opened.handle.cstring ipField.offset ipField.size

theorem storeAt_load_front {memory : Memory} {offset : Nat} (front back : Bytes) :
    (memory.storeAt offset (front ++ back)).load offset front.length = front := by
  have whole := @Memory.storeAt_load memory offset (front ++ back)
  rw [List.length_append, Memory.load_add] at whole
  exact (List.append_inj whole (Memory.load_length ..)).1

/-- A string shorter than its field is there with its NUL. -/
theorem strncpy_cstring {field : HandleField} {text : CString} (short : text.bytes.length < field.size)
    (handle : Memory) : (strncpy field text.bytes handle).cstring field.offset field.size = text.bytes := by
  have zeros : List.replicate (field.size - text.bytes.length) (0 : UInt8) =
      0 :: List.replicate (field.size - text.bytes.length - 1) 0 := by
    rw [← List.replicate_succ]
    congr 1
    omega
  have stored := @storeAt_load_front handle field.offset (text.bytes ++ [0])
    (List.replicate (field.size - text.bytes.length - 1) 0)
  rw [List.append_assoc, List.singleton_append, ← zeros, List.length_append, List.length_singleton] at stored
  refine cstring_held ?_ text.noNul short
  rw [strncpy, List.take_of_length_le (Nat.le_of_lt short)]
  exact stored

/-- The text in the `ip` field of a handle that `tcp_open` returns is the address its socket is connected to. -/
theorem tcpOpen_address {inetPton : CString → Option UInt32}
    (inverse : ∀ host, inetPton ⟨inetNtop host, inetNtop_noNul host⟩ = some host) (junk : Memory × Memory)
    {serial : Option CString} (short : ∀ text, serial = some text → text.bytes.length < ipField.size)
    {network final : Network} {opened : TcpOpened}
    (run : tcpOpen inetPton junk serial { network with calls := [] } = (some (some opened), final)) :
    ∃ text, text.bytes = opened.ip ∧ inetPton text = some opened.address.host := by
  have ends := tcpOpen_returns inetPton junk serial network.incoming { network with calls := [] } ⟨⟨rfl, rfl⟩, rfl⟩
  rw [Proc.Ends, run] at ends
  obtain ⟨wave, request, reached, _⟩ := ends
  cases reached with
  | @direct text _ _ given dotted host handle =>
      refine ⟨text, ?_, host⟩
      rw [TcpOpened.ip, handle]
      exact (strncpy_cstring (short text given) _).symm
  | @found _ state sender _ _ _ _ host handle =>
      refine ⟨⟨inetNtop sender.host, inetNtop_noNul sender.host⟩, ?_, ?_⟩
      · have stored := @Memory.storeAt_load state.handle ipField.offset (inetNtop sender.host ++ [0])
        rw [List.length_append, List.length_singleton] at stored
        rw [TcpOpened.ip, handle]
        exact (cstring_held stored (inetNtop_noNul _) (Nat.lt_of_le_of_lt (inetNtop_length _) (by decide))).symm
      · rw [host]
        exact inverse sender.host

theorem tcpOpen_address_beacon : ∃ opened final, tcpOpen inetPton (fun _ => 0, fun _ => 0) none answering =
    (some (some opened), final) ∧ ∃ text, text.bytes = opened.ip ∧ inetPton text = some opened.address.host := by
  obtain ⟨opened, final, run⟩ := answering_opens inetPton
  refine ⟨opened, final, run, @tcpOpen_address inetPton (fun host => ?_) _ none nofun answering final opened run⟩
  exact inetPton_inetNtop host (List.append_nil _).symm nofun

end Ev3duder
