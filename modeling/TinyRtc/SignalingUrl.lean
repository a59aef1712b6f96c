import TinyRtc.Common
import TinyRtc.CString
import TinyRtc.Decimal

namespace TinyRtc.SignalingUrl

open TinyRtc.CString
open TinyRtc.Decimal

/-- What `sig_parse_url` writes through its pointers. -/
structure ParsedUrl where
  host : List UInt8
  port : UInt16
  isWss : Bool
  deriving DecidableEq, Repr

def slash : UInt8 := 0x2F

def colon : UInt8 := 0x3A

/-- The comparisons with the two schemes: the rest of the URL, the port of the scheme, and whether
it is the secure one. -/
def urlScheme (url : List UInt8) : Option (List UInt8 × UInt16 × Bool) :=
  if url.take 5 = ascii "ws://" then some (url.drop 5, 80, false)
  else if url.take 6 = ascii "wss://" then some (url.drop 6, 443, true)
  else none

/-- Which of the two characters comes first is told by the lengths of what they begin. -/
def sigParseUrl (url : List UInt8) (hostLen : Nat) : Option ParsedUrl :=
  (urlScheme url).bind fun (url, port, isWss) =>
    let slashLen := ((strchr url slash).getD []).length
    match strchr url colon with
    | some atColon =>
        if slashLen < atColon.length then
          let hostLenActual := url.length - atColon.length
          if hostLenActual ≥ hostLen then none
          else
            some ⟨url.take hostLenActual, (atoi (atColon.drop 1)).toUInt32.toUInt16, isWss⟩
        else
          let len := url.length - slashLen
          if len ≥ hostLen then none else some ⟨url.take len, port, isWss⟩
    | none =>
        let len := url.length - slashLen
        if len ≥ hostLen then none else some ⟨url.take len, port, isWss⟩

def schemeText (isWss : Bool) : List UInt8 :=
  if isWss then ascii "wss://" else ascii "ws://"

def schemePort (isWss : Bool) : UInt16 :=
  if isWss then 443 else 80

/-- What may stand behind the host, and the port that it gives. -/
inductive Behind (isWss : Bool) : List UInt8 → UInt16 → Prop
  | nothing : Behind isWss [] (schemePort isWss)
  | path (path : List UInt8) : Behind isWss (slash :: path) (schemePort isWss)
  | port (text : List UInt8) : Behind isWss (colon :: text) (atoi text).toUInt32.toUInt16

/-- A host: neither of the two characters that end it, and room for it. -/
structure UrlHost (hostLen : Nat) (host : List UInt8) : Prop where
  no_slash : slash ∉ host
  no_colon : colon ∉ host
  length_lt : host.length < hostLen

theorem urlScheme_schemeText (isWss : Bool) (text : List UInt8) :
    urlScheme (schemeText isWss ++ text) = some (text, schemePort isWss, isWss) := by
  cases isWss with
  | false => rfl
  | true => rfl

theorem urlScheme_eq_some {url text : List UInt8} {port : UInt16} {isWss : Bool}
    (h : urlScheme url = some (text, port, isWss)) :
    url = schemeText isWss ++ text ∧ port = schemePort isWss := by
  rw [urlScheme] at h
  split at h
  · next hscheme =>
    cases h
    exact ⟨by rw [schemeText, if_neg Bool.false_ne_true, ← hscheme, List.take_append_drop], rfl⟩
  · split at h
    · next hscheme =>
      cases h
      exact ⟨by rw [schemeText, if_pos rfl, ← hscheme, List.take_append_drop], rfl⟩
    · cases h

theorem strchr_length_le (text : List UInt8) (c : UInt8) :
    ((strchr text c).getD []).length ≤ text.length := by
  have hsuffix := (List.dropWhile_suffix (l := text) (· != c)).length_le
  rw [strchr]
  cases hrest : text.dropWhile (· != c) with
  | nil => exact Nat.zero_le _
  | cons d rest => rwa [hrest] at hsuffix

theorem strchr_self (c : UInt8) (rest : List UInt8) : strchr (c :: rest) c = some (c :: rest) := by
  rw [strchr, List.dropWhile_cons_of_neg (by simp)]

theorem strchr_cons_ne {c d : UInt8} (h : d ≠ c) (rest : List UInt8) :
    strchr (d :: rest) c = strchr rest c := by
  rw [strchr, strchr, List.dropWhile_cons_of_pos (by simpa using h)]

/-- Behind its scheme, a URL is read up to the first of the two characters. -/
theorem sigParseUrl_host {isWss : Bool} {host behind : List UInt8} {port : UInt16} {hostLen : Nat}
    (hslash : slash ∉ host) (hcolon : colon ∉ host) (hbehind : Behind isWss behind port) :
    sigParseUrl (schemeText isWss ++ (host ++ behind)) hostLen =
      if host.length ≥ hostLen then none else some ⟨host, port, isWss⟩ := by
  rw [sigParseUrl, urlScheme_schemeText, Option.bind_some]
  dsimp only
  rw [strchr_append hslash, strchr_append hcolon, List.length_append]
  have hne : slash ≠ colon := by decide
  cases hbehind with
  | nothing =>
      have hnone : ∀ c, strchr [] c = none := fun c => rfl
      rw [hnone, hnone, Option.getD_none, List.length_nil, Nat.add_zero, Nat.sub_zero,
        List.append_nil, List.take_length]
  | path path =>
      have hlength : host.length + (slash :: path).length - (slash :: path).length = host.length :=
        Nat.add_sub_cancel _ _
      have hle := strchr_length_le path colon
      rw [strchr_self, Option.getD_some, strchr_cons_ne hne, hlength, List.take_left]
      cases hpath : strchr path colon with
      | none => rfl
      | some atColon =>
          rw [hpath, Option.getD_some] at hle
          dsimp only
          rw [if_neg (by rw [List.length_cons]; omega)]
  | port text =>
      have hlength : host.length + (colon :: text).length - (colon :: text).length = host.length :=
        Nat.add_sub_cancel _ _
      have hle := strchr_length_le text slash
      rw [strchr_self, strchr_cons_ne hne.symm]
      dsimp only
      rw [if_pos (by rw [List.length_cons]; omega), hlength, List.take_left, List.drop_one,
        List.tail_cons]

theorem not_mem_takeWhile {stop : UInt8} {p : UInt8 → Bool} (h : p stop = false)
    (text : List UInt8) : stop ∉ text.takeWhile p := by
  intro hmem
  rw [List.mem_takeWhile_imp hmem] at h
  cases h

/-- A text is a host and what may stand behind one. -/
theorem exists_host (isWss : Bool) (text : List UInt8) :
    ∃ host behind port, text = host ++ behind ∧ slash ∉ host ∧ colon ∉ host ∧
      Behind isWss behind port := by
  refine ⟨text.takeWhile fun c => c != slash && c != colon,
    text.dropWhile fun c => c != slash && c != colon, ?_⟩
  have hhead := List.head?_dropWhile_not (fun c => c != slash && c != colon) text
  cases hrest : text.dropWhile fun c => c != slash && c != colon with
  | nil =>
      refine ⟨schemePort isWss, ?_, not_mem_takeWhile (by decide) text,
        not_mem_takeWhile (by decide) text, .nothing⟩
      rw [← hrest, List.takeWhile_append_dropWhile]
  | cons c rest =>
      rw [hrest] at hhead
      have hstop : c = slash ∨ c = colon := by
        by_contra hneither
        obtain ⟨hslash, hcolon⟩ := not_or.mp hneither
        simp [hslash, hcolon] at hhead
      have htext : text = (text.takeWhile fun c => c != slash && c != colon) ++ c :: rest := by
        rw [← hrest, List.takeWhile_append_dropWhile]
      rcases hstop with rfl | rfl
      · exact ⟨schemePort isWss, htext, not_mem_takeWhile (by decide) text,
          not_mem_takeWhile (by decide) text, .path rest⟩
      · exact ⟨_, htext, not_mem_takeWhile (by decide) text, not_mem_takeWhile (by decide) text,
          .port rest⟩

/-- The URLs that are accepted, and what is read from them. -/
theorem sigParseUrl_eq_some_iff (url : List UInt8) (hostLen : Nat) (parsed : ParsedUrl) :
    sigParseUrl url hostLen = some parsed ↔
      UrlHost hostLen parsed.host ∧ ∃ behind, Behind parsed.isWss behind parsed.port ∧
        url = schemeText parsed.isWss ++ (parsed.host ++ behind) := by
  constructor
  · intro h
    obtain ⟨⟨text, port, isWss⟩, hscheme, -⟩ := Option.bind_eq_some_iff.mp h
    obtain ⟨rfl, -⟩ := urlScheme_eq_some hscheme
    obtain ⟨host, behind, port, rfl, hslash, hcolon, hbehind⟩ := exists_host isWss text
    rw [sigParseUrl_host hslash hcolon hbehind] at h
    split at h
    · cases h
    · next hshort =>
      cases h
      exact ⟨⟨hslash, hcolon, Nat.not_le.mp hshort⟩, behind, hbehind, rfl⟩
  · rintro ⟨hhost, behind, hbehind, rfl⟩
    rw [sigParseUrl_host hhost.no_slash hhost.no_colon hbehind,
      if_neg (Nat.not_le.mpr hhost.length_lt)]

/-- A port that is written out. -/
theorem behind_port (isWss : Bool) (port : UInt16) {rest : List UInt8} (hrest : EndsNumber rest) :
    Behind isWss (colon :: (decimal port.toNat ++ rest)) port := by
  have hread := atoi_decimalInt (Int32.ofInt (port.toNat : Int)) rest hrest
  rw [decimalInt_u16] at hread
  have hport := @Behind.port isWss (decimal port.toNat ++ rest)
  rwa [hread, toUInt16_ofInt] at hport

example : sigParseUrl (ascii "wss://a.b:8443/x") 128 = some ⟨ascii "a.b", 8443, true⟩ := by decide

end TinyRtc.SignalingUrl
