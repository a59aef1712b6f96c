import Mathlib.Data.List.DropRight
import TinyRtc.Decimal
import TinyRtc.Sdp

namespace TinyRtc.SdpParser

open TinyRtc.Common
open TinyRtc.CString
open TinyRtc.Decimal
open TinyRtc.MediaCodec
open TinyRtc.SlotArray
open TinyRtc.Sdp

/-- The characters that end a line: NUL, LF and CR. -/
def isEol (c : UInt8) : Bool :=
  c == 0x00 || c == 0x0A || c == 0x0D

/-- The text from a cursor on is the list of the bytes up to the terminating NUL,
which the list leaves out. -/
def skipWhitespace (p : List UInt8) : List UInt8 :=
  p.dropWhile fun c => c == 0x20 || c == 0x09

def findEol (p : List UInt8) : List UInt8 :=
  p.dropWhile fun c => !isEol c

/-- `if (*p == c) p++`. -/
def skipByte (c : UInt8) : List UInt8 → List UInt8
  | [] => []
  | x :: rest => if x = c then rest else x :: rest

/-- `p++` wherever the cursor is. `none` when it moves past the terminating NUL,
after which the source reads out of bounds. -/
def advance : List UInt8 → Option (List UInt8)
  | [] => none
  | x :: rest => if x = 0x00 then none else some rest

/-- The loop of `copy_until`: the bytes in `dst`, and where the cursor stops. -/
def copyLoop (dstLen : Nat) (sep : UInt8) : (dst p : List UInt8) → List UInt8 × List UInt8
  | dst, [] => (dst, [])
  | dst, c :: rest =>
      if isEol c ∨ c = sep then (dst, c :: rest)
      else if (c ≠ 0x20 ∨ 0 < dst.length) ∧ dst.length < dstLen - 1 then
        copyLoop dstLen sep (dst ++ [c]) rest
      else copyLoop dstLen sep dst rest

theorem copyLoop_length_le {dstLen : Nat} (sep : UInt8) {dst : List UInt8} (p : List UInt8)
    (h : dst.length ≤ dstLen - 1) : (copyLoop dstLen sep dst p).1.length ≤ dstLen - 1 := by
  induction p generalizing dst with
  | nil => exact h
  | cons c rest ih =>
      rw [copyLoop]
      split
      · exact h
      · split
        · rename_i hroom
          apply ih
          rw [List.length_append, List.length_singleton]
          omega
        · exact ih h

theorem copyLoop_no_nul (dstLen : Nat) (sep : UInt8) {dst : List UInt8} (p : List UInt8)
    (h : 0x00 ∉ dst) : 0x00 ∉ (copyLoop dstLen sep dst p).1 := by
  induction p generalizing dst with
  | nil => exact h
  | cons c rest ih =>
      rw [copyLoop]
      split
      · exact h
      · rename_i hstop
        split
        · apply ih
          rw [List.mem_append, List.mem_singleton]
          rintro (hmem | rfl)
          · exact h hmem
          · exact hstop (Or.inl rfl)
        · exact ih h

/-- `copy_until` into an array of `cap` bytes: the string, and the cursor on the
separator or the end of the line. -/
def copyUntil (cap : Nat) (sep : UInt8) (p : List UInt8) : CStr cap × List UInt8 :=
  let copied := copyLoop cap sep [] (skipWhitespace p)
  ({ bytes := copied.1.rdropWhile (· == 0x20)
     no_nul := fun h =>
       copyLoop_no_nul cap sep _ List.not_mem_nil ((List.rdropWhile_prefix _ _).mem h)
     length_le :=
       Nat.le_trans (List.rdropWhile_prefix (· == 0x20) copied.1).length_le
         (copyLoop_length_le sep (skipWhitespace p) (Nat.zero_le _)) },
    copied.2)

/-- `none` is the source's -1, which leaves `*out` as it was. -/
def parseInt (str : List UInt8) : Option Int32 :=
  (strtol str).map fun scanned => Int32.ofInt scanned.1

def parseUint64 (str : List UInt8) : Option UInt64 :=
  strtoull str

/-- `none` is the source's -1. -/
def parseCandidate (line : List UInt8) : Option SdpCandidate :=
  let (foundation, line) := copyUntil 32 0x20 line
  if foundation.bytes = [] then none
  else
    let (compStr, line) := copyUntil 16 0x20 line
    if (parseInt compStr.bytes).isNone then none
    else
      let (protocol, line) := copyUntil 16 0x20 line
      let protocol := if protocol.bytes = [] then CStr.strncpy (ascii "udp") else protocol
      let (prioStr, line) := copyUntil 32 0x20 line
      let prio := (strtoull prioStr.bytes).getD 0
      if prio = 0 ∧ prioStr.bytes.head? ≠ some 0x30 then none
      else
        let (ip, line) := copyUntil 64 0x20 line
        if ip.bytes = [] then none
        else
          let (portStr, line) := copyUntil 16 0x20 line
          match parseInt portStr.bytes with
          | none => none
          | some port =>
              let (token, line) := copyUntil 32 0x20 line
              if token.bytes ≠ ascii "typ" then none
              else
                let (type, _) := copyUntil 32 0x20 line
                if type.bytes = [] then none
                else
                  some
                    { foundation := foundation
                      priority := prio.toUInt32
                      ip := ip
                      port := port.toUInt32.toUInt16
                      type := type
                      protocol := protocol
                      isIpv6 := ip.bytes.contains 0x3A }

/-- The loop that copies the fingerprint. -/
def fingerprintLoop (fpLen : Nat) (line : List UInt8) : List UInt8 :=
  (line.takeWhile fun c => !isEol c).take (fpLen - 1)

/-- The fingerprint type, and the fingerprint unless the source returns -1. -/
def parseFingerprint (line : List UInt8) : CStr 16 × Option (CStr 128) :=
  let (type, line) := copyUntil 16 0x20 line
  if type.bytes = [] then (type, none)
  else
    let copied := fingerprintLoop 128 (skipWhitespace line)
    (type, some
      { bytes := copied
        no_nul := fun h => by
          have := List.mem_takeWhile_imp (List.mem_of_mem_take h)
          simp [isEol] at this
        length_le := List.length_take_le _ _ })

/-- The contents of `sess_id` and `sess_ver` before they are assigned, for the
visit to an origin line with the given bytes ahead. -/
structure Locals where
  sessId : List UInt8 → UInt64
  sessVer : List UInt8 → UInt64

def parseOrigin (locals : Locals) (p : List UInt8) (session : SdpSession) :
    List UInt8 × SdpSession :=
  let start := p
  let (username, p) := copyUntil 256 0x20 p
  let (idStr, p) := copyUntil 64 0x20 p
  let sessId := (parseUint64 idStr.bytes).getD (locals.sessId start)
  let (verStr, p) := copyUntil 64 0x20 p
  let sessVer := (parseUint64 verStr.bytes).getD (locals.sessVer start)
  let (networkType, p) := copyUntil 16 0x20 p
  let (addressType, p) := copyUntil 16 0x20 p
  let (unicastAddress, p) := copyUntil 64 0x0A p
  (p, { session with
    username := username
    sessionId := sessId
    sessionVersion := sessVer
    networkType := networkType
    addressType := addressType
    unicastAddress := unicastAddress })

def parseTiming (p : List UInt8) (session : SdpSession) : List UInt8 × SdpSession :=
  let (startStr, p) := copyUntil 64 0x20 p
  let startTime := (parseUint64 startStr.bytes).getD session.startTime
  let (stopStr, p) := copyUntil 64 0x0A p
  let stopTime := (parseUint64 stopStr.bytes).getD session.stopTime
  (p, { session with startTime := startTime, stopTime := stopTime })

/-- The codec that an `a=rtpmap` line names, if it is a supported one. -/
def codecOfName (name : List UInt8) : Option CodecId :=
  if strcaseEq name (ascii "H264") then some .h264
  else if strcaseEq name (ascii "OPUS") then some .opus
  else if strcaseEq name (ascii "PCMA") then some .pcma
  else if strcaseEq name (ascii "PCMU") then some .pcmu
  else if strcaseEq name (ascii "G722") then some .g722
  else none

/-- What an `a=rtpmap` line does to the media it is matched with. -/
def applyRtpmap (codecName : List UInt8) (clockRate : UInt32) (channels : Int32)
    (media : SdpMedia) : SdpMedia :=
  { media with
    codecId := (codecOfName codecName).getD media.codecId
    clockRate := if clockRate > 0 then clockRate else media.clockRate
    channels := channels }

/-- A change to the first media with the given payload type. -/
def updateFirst (pt : Int32) (f : SdpMedia → SdpMedia) : List SdpMedia → List SdpMedia
  | [] => []
  | media :: rest =>
      if media.payloadType = pt then f media :: rest else media :: updateFirst pt f rest

theorem updateFirst_length (pt : Int32) (f : SdpMedia → SdpMedia) (items : List SdpMedia) :
    (updateFirst pt f items).length = items.length := by
  induction items with
  | nil => rfl
  | cons media rest ih =>
      rw [updateFirst]
      split <;> simp [ih]

/-- A change to the last media. -/
def updateLast (f : SdpMedia → SdpMedia) : List SdpMedia → List SdpMedia
  | [] => []
  | [media] => [f media]
  | media :: next :: rest => media :: updateLast f (next :: rest)

theorem updateLast_length (f : SdpMedia → SdpMedia) (items : List SdpMedia) :
    (updateLast f items).length = items.length := by
  match items with
  | [] => rfl
  | [_] => rfl
  | media :: next :: rest => simpa [updateLast] using updateLast_length f (next :: rest)

/-- The part of the encoding parameters before the slash, and the part after it. -/
def splitSlash (params : List UInt8) : List UInt8 × Option (List UInt8) :=
  (params.takeWhile (· != 0x2F), ((params.dropWhile (· != 0x2F)).tail?))

/-- `p` is behind the colon. -/
def parseRtpmap (p : List UInt8) (session : SdpSession) : List UInt8 × SdpSession :=
  match parseInt p with
  | none => (p, session)
  | some pt =>
      let p := p.dropWhile fun c => c != 0x20 && c != 0x00 && c != 0x0A
      let p := skipByte 0x20 p
      let (codecName, p) := copyUntil 64 0x2F p
      let p := skipByte 0x2F p
      let (encodingParams, p) := copyUntil 64 0x0A p
      let (rate, channels) := splitSlash encodingParams.bytes
      let clockRate := (atoi rate).toUInt32
      let channels := (channels.map atoi).getD 1
      (p, { session with
        media := session.media.mapItems
          (updateFirst pt (applyRtpmap codecName.bytes clockRate channels))
          (updateFirst_length pt _) })

/-- `p` is behind the colon. -/
def parseMid (p : List UInt8) (session : SdpSession) : List UInt8 × SdpSession :=
  let (midValue, p) := copyUntil 32 0x0A p
  (p, { session with
    media := session.media.mapItems
      (updateLast fun media => { media with mid := CStr.strncpy midValue.bytes })
      (updateLast_length _) })

/-- The attributes by name, the cursor where the name ends. -/
def parseNamedAttribute (attrName p : List UInt8) (session : SdpSession) :
    List UInt8 × SdpSession :=
  if attrName = ascii "ice-ufrag" then
    let (iceUfrag, p) := copyUntil 64 0x0A (skipByte 0x3A p)
    (p, { session with iceUfrag := iceUfrag })
  else if attrName = ascii "ice-pwd" then
    let (icePwd, p) := copyUntil 128 0x0A (skipByte 0x3A p)
    (p, { session with icePwd := icePwd })
  else if attrName = ascii "fingerprint" then
    let p := skipByte 0x3A p
    let (fingerprintType, fingerprint) := parseFingerprint p
    (p, { session with
      fingerprintType := fingerprintType
      fingerprint := fingerprint.getD session.fingerprint })
  else if attrName = ascii "candidate" then
    if session.candidates.count < tinyrtcMaxCandidates then
      let p := skipByte 0x3A p
      let pushed := (parseCandidate p).bind session.candidates.push?
      (p, { session with candidates := pushed.getD session.candidates })
    else (p, session)
  else if attrName = ascii "setup" then
    let (dtlsSetup, p) := copyUntil 16 0x0A (skipByte 0x3A p)
    (p, { session with dtlsSetup := dtlsSetup })
  else if attrName = ascii "mid" then
    if 0 < session.media.count then parseMid (skipByte 0x3A p) session else (p, session)
  else if attrName = ascii "rtpmap" then parseRtpmap (skipByte 0x3A p) session
  else (p, session)

def parseAttribute (p : List UInt8) (session : SdpSession) : List UInt8 × SdpSession :=
  let (attrName, p) := copyUntil 64 0x3A p
  parseNamedAttribute attrName.bytes p session

/-- The codec, clock rate and channels that a payload type stands for before any
`a=rtpmap` line. -/
def withStaticCodec (media : SdpMedia) : SdpMedia :=
  if media.payloadType = 0 then
    { media with codecId := .pcmu, clockRate := 8000, channels := 1 }
  else if media.payloadType = 8 then
    { media with codecId := .pcma, clockRate := 8000, channels := 1 }
  else if media.payloadType = 9 then
    { media with codecId := .g722, clockRate := 8000, channels := 1 }
  else if media.payloadType = 100 then
    { media with codecId := .h264, clockRate := 90000, channels := 1 }
  else if media.payloadType = 111 then
    { media with codecId := .opus, clockRate := 48000, channels := 2 }
  else media

/-- The kind of an m-line. `none` is a kind that is skipped. -/
def kindOfName (mediaType : List UInt8) : Option TrackKind :=
  if mediaType = ascii "audio" then some .audio
  else if mediaType = ascii "video" then some .video
  else none

def parseMedia (p : List UInt8) (session : SdpSession) : List UInt8 × SdpSession :=
  if sdpMaxMedia ≤ session.media.count then (p, session)
  else
    let (mediaType, p) := copyUntil 16 0x20 p
    let (portStr, p) := copyUntil 16 0x20 p
    let (_, p) := copyUntil 16 0x20 p
    match kindOfName mediaType.bytes with
    | none => (p, session)
    | some kind =>
        let media := { SdpMedia.zero with
          kind := kind
          port := (parseInt portStr.bytes).getD 0 }
        let (payloadType, p) :=
          match strtol p with
          | none => (media.payloadType, p)
          | some (pt, rest) => (Int32.ofInt pt, rest)
        let media := withStaticCodec { media with payloadType := payloadType }
        let media := { media with directionSend := true, directionRecv := true }
        (p, { session with media := (session.media.push? media).getD session.media })

/-- The switch on the type character: the cursor is behind the equals sign. -/
def parseField (locals : Locals) (type : UInt8) (p : List UInt8) (session : SdpSession) :
    List UInt8 × SdpSession :=
  if type = 0x76 then
    (findEol p, { session with version := (parseInt p).getD session.version })
  else if type = 0x6F then parseOrigin locals p session
  else if type = 0x73 then
    let (sessionName, p) := copyUntil 256 0x0A p
    (p, { session with sessionName := sessionName })
  else if type = 0x74 then parseTiming p session
  else if type = 0x61 then parseAttribute p session
  else if type = 0x6D then parseMedia p session
  else (p, session)

/-- One line with the given type character, the cursor behind it. -/
def parseLine (locals : Locals) (type : UInt8) (p : List UInt8) (session : SdpSession) :
    Option (List UInt8 × SdpSession) :=
  if p.head? ≠ some 0x3D then (advance (findEol p)).map fun p => (p, session)
  else
    let (p, session) := parseField locals type p.tail session
    let p := findEol p
    match p with
    | [] => some ([], session)
    | c :: rest => if c = 0x00 then some (p, session) else some (skipByte 0x0A rest, session)

/-- The line loop. Every turn takes at least one byte off the text, so the length
of the text is enough fuel. -/
def sdpParseLoop (locals : Locals) :
    (fuel : Nat) → (p : List UInt8) → SdpSession → Option SdpSession
  | _, [], session => some session
  | 0, _ :: _, session => some session
  | fuel + 1, c :: rest, session =>
      if c = 0x00 then some session
      else if isEol c then sdpParseLoop locals fuel rest session
      else
        match parseLine locals c rest session with
        | none => none
        | some (p, session) => sdpParseLoop locals fuel p session

/-- `sdp_parse` on a text: the error code and the session it leaves. `none` when
it reads past the terminating NUL. -/
def sdpParse (locals : Locals) (text : List UInt8) : Option (TinyrtcError × SdpSession) :=
  (sdpParseLoop locals text.length text sdpSessionInit).map fun session =>
    (if session.version = 0 then .ok else .error, session)

end TinyRtc.SdpParser
