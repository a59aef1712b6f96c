import Mathlib.Logic.Basic

namespace TinyRtc.Common

/-- `tinyrtc_error_t`. -/
inductive TinyrtcError where
  | ok
  | error
  | invalidArg
  | memory
  | network
  | notFound
  | inProgress
  | timeout
  | invalidState
  | dtlsFailed
  | iceFailed
  | signaling
  deriving DecidableEq, Repr

/-- `TINYRTC_MAX_CANDIDATES`, which bounds the candidates of a session
description and those of an ICE session. -/
def tinyrtcMaxCandidates : Nat := 32

/-- An array of `n` bytes that is used as a whole: a key, a salt, a hash or a
cipher block. -/
abbrev Bytes (n : Nat) : Type :=
  Fin n → UInt8

/-- A cipher block has bytes to index. -/
instance blockNeZero : @NeZero Nat Zero.ofOfNat0 16 :=
  Nat.instNeZeroSucc

end TinyRtc.Common
