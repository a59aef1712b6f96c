import TinyRtc.BigEndian
import TinyRtc.CString
import TinyRtc.Decimal

namespace TinyRtc.Inet

open TinyRtc.BigEndian
open TinyRtc.CString
open TinyRtc.Decimal

/-- `struct sockaddr_in`, with its fields in host byte order. -/
structure SockAddr where
  addr : UInt32
  port : UInt16
  deriving DecidableEq, Repr

/-- `INET_ADDRSTRLEN`. -/
def inetAddrStrLen : Nat := 16

/-- `inet_ntop` for `AF_INET`: the dotted quad. -/
def inetNtop (addr : UInt32) : List UInt8 :=
  List.intercalate (ascii ".") ((write32 addr).map fun byte => decimal byte.toNat)

/-- The loop of `inet_pton` for `AF_INET`, on the octets that are complete, the
last one first, and the digits of the current one. -/
def inetPtonLoop : (octets : List Nat) → (current : Option Nat) → List UInt8 → Option (List Nat)
  | octets, some current, [] => some (current :: octets)
  | _, none, [] => none
  | octets, current, c :: rest =>
      if isDigit c then
        match current with
        | none => inetPtonLoop octets (some (digitValue c)) rest
        | some value =>
            if value = 0 ∨ value * 10 + digitValue c > 255 then none
            else inetPtonLoop octets (some (value * 10 + digitValue c)) rest
      else
        match current with
        | none => none
        | some value => if c = 0x2E then inetPtonLoop (value :: octets) none rest else none

/-- `inet_pton` for `AF_INET`: `none` when the text is not a dotted quad. -/
def inetPton (text : List UInt8) : Option UInt32 :=
  match inetPtonLoop [] none text with
  | some [d, c, b, a] => some (read32 a.toUInt8 b.toUInt8 c.toUInt8 d.toUInt8)
  | _ => none

/-- A datagram in the receive buffer: the bytes that arrived, whatever the rest of
the buffer still holds, and where the datagram came from. -/
structure Datagram where
  bytes : List UInt8
  stale : Nat → UInt8
  source : SockAddr

/-- The buffer's byte at an index, inside the datagram or behind it. -/
def Datagram.byteAt (datagram : Datagram) (i : Nat) : UInt8 :=
  (datagram.bytes[i]?).getD (datagram.stale i)

/-- Two numbers before a dot are told apart by their digits. -/
theorem decimal_dot_inj {m n : Nat} {rest rest' : List UInt8}
    (h : decimal m ++ 0x2E :: rest = decimal n ++ 0x2E :: rest') : m = n ∧ rest = rest' := by
  have hends : ∀ text, EndsNumber (0x2E :: text) := fun text c hc => by
    cases hc
    rfl
  obtain ⟨htake, hdrop⟩ := takeWhile_digits (decimal_isDigit m) (hends rest)
  obtain ⟨htake', hdrop'⟩ := takeWhile_digits (decimal_isDigit n) (hends rest')
  rw [h] at htake hdrop
  have hdigits : decimal n = decimal m := htake'.symm.trans htake
  have hbehind : 0x2E :: rest' = 0x2E :: rest := hdrop'.symm.trans hdrop
  constructor
  · rw [← digitsValue_decimal m, ← hdigits, digitsValue_decimal]
  · exact (List.cons.inj hbehind).2.symm

theorem inetNtop_injective : Function.Injective inetNtop := by
  intro addr addr' h
  have hdot : ascii "." = [0x2E] := by decide
  simp only [inetNtop, write32, hdot, List.map_cons, List.map_nil, List.intercalate,
    List.intersperse, List.flatten_cons, List.flatten_nil, List.append_nil, List.cons_append,
    List.nil_append] at h
  obtain ⟨hfirst, h⟩ := decimal_dot_inj h
  obtain ⟨hsecond, h⟩ := decimal_dot_inj h
  obtain ⟨hthird, h⟩ := decimal_dot_inj h
  have hlast := congrArg digitsValue h
  rw [digitsValue_decimal, digitsValue_decimal] at hlast
  apply write32_injective
  rw [write32, write32, UInt8.toNat_inj.mp hfirst, UInt8.toNat_inj.mp hsecond,
    UInt8.toNat_inj.mp hthird, UInt8.toNat_inj.mp hlast]

theorem inetNtop_eq (addr : UInt32) : ∃ a b c d : UInt8, inetNtop addr =
    decimal a.toNat ++ (0x2E :: (decimal b.toNat ++ (0x2E :: (decimal c.toNat ++
      (0x2E :: decimal d.toNat))))) := by
  have hdot : ascii "." = [0x2E] := by decide
  refine ⟨(addr >>> 24).toUInt8, (addr >>> 16).toUInt8, (addr >>> 8).toUInt8, addr.toUInt8, ?_⟩
  rw [inetNtop, write32, hdot]
  simp only [List.map_cons, List.map_nil, List.intercalate, List.intersperse, List.flatten_cons,
    List.flatten_nil, List.append_nil, List.cons_append, List.nil_append]

theorem decimal_byte_length_le (byte : UInt8) : (decimal byte.toNat).length ≤ 3 :=
  decimal_length_le (by decide) (byte.toNat_lt.trans (by decide))

theorem inetNtop_length_le (addr : UInt32) : (inetNtop addr).length ≤ 15 := by
  obtain ⟨a, b, c, d, htext⟩ := inetNtop_eq addr
  have ha := decimal_byte_length_le a
  have hb := decimal_byte_length_le b
  have hc := decimal_byte_length_le c
  have hd := decimal_byte_length_le d
  rw [htext]
  simp only [List.length_append, List.length_cons]
  omega

theorem inetNtop_no_nul (addr : UInt32) : 0x00 ∉ inetNtop addr := by
  obtain ⟨a, b, c, d, htext⟩ := inetNtop_eq addr
  have hdigits : ∀ n : Nat, 0x00 ∉ decimal n := fun n hmem =>
    absurd (decimal_isDigit n 0x00 hmem) (by decide)
  rw [htext]
  simp [hdigits]

/-- A dotted quad fits into any array for an address text. -/
theorem strncpy_inetNtop (addr : UInt32) :
    (CStr.strncpy (inetNtop addr) : CStr 64).bytes = inetNtop addr :=
  CStr.strncpy_bytes_of_le (n := 16) ⟨inetNtop addr, inetNtop_no_nul addr, inetNtop_length_le addr⟩
    ((inetNtop_length_le addr).trans (by decide))

example : inetPton (inetNtop 0xC0A80001) = some 0xC0A80001 := by decide +kernel

end TinyRtc.Inet
