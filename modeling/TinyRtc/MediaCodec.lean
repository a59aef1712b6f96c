import TinyRtc.CString

namespace TinyRtc.MediaCodec

open TinyRtc.CString

/-- `tinyrtc_codec_id_t`. -/
inductive CodecId where
  | h264
  | opus
  | pcma
  | pcmu
  | g722
  deriving DecidableEq, Repr

/-- `codec_info_t`, less the id. -/
structure CodecInfo where
  name : List UInt8
  defaultPayload : Int32
  clockRate : UInt32
  channels : Int32
  deriving DecidableEq

/-- `codec_info_table`. -/
def codecInfo : CodecId → CodecInfo
  | .h264 => ⟨ascii "H264", 100, 90000, 1⟩
  | .opus => ⟨ascii "OPUS", 111, 48000, 2⟩
  | .pcma => ⟨ascii "PCMA", 8, 8000, 1⟩
  | .pcmu => ⟨ascii "PCMU", 0, 8000, 1⟩
  | .g722 => ⟨ascii "G722", 9, 8000, 1⟩

def tinyrtcCodecGetDefaultPayload (codec : CodecId) : Int32 :=
  (codecInfo codec).defaultPayload

def tinyrtcCodecGetName (codec : CodecId) : List UInt8 :=
  (codecInfo codec).name

def tinyrtcCodecGetClockRate (codec : CodecId) : UInt32 :=
  (codecInfo codec).clockRate

def tinyrtcCodecGetChannels (codec : CodecId) : Int32 :=
  (codecInfo codec).channels

end TinyRtc.MediaCodec
