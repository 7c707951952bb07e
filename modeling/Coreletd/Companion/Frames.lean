/-
# Companion frames

A frame is a marker, a 16-bit length and a payload. The reader takes bytes as
they come, skips what is before a marker, and gives up a marker whose length
cannot be meant.
-/

import Coreletd.Util.Bytes

namespace Coreletd.Companion

/-! ## Codes -/

def kCmdAppStart : UInt8 := 1
def kCmdSendTxtMsg : UInt8 := 2
def kCmdSyncNextMessage : UInt8 := 10
def kCmdHasConnection : UInt8 := 28
def kCmdLogout : UInt8 := 29

/-- The commands that the node, the stores, the radio, the metrics and the settings
answer. -/
def kOtherCommands : List UInt8 :=
  [2, 3, 4, 5, 6, 7, 8, 9, 11, 12, 13, 14, 15, 16, 17, 20, 21, 22, 30, 31, 32, 43]

def kRespOk : UInt8 := 0
def kRespErr : UInt8 := 1
def kRespSent : UInt8 := 6
def kRespNoMoreMessages : UInt8 := 10
def kRespContactMsgRecvV3 : UInt8 := 16
def kRespChannelMsgRecvV3 : UInt8 := 17

def kPushSendConfirmed : UInt8 := 0x82
def kPushMsgWaiting : UInt8 := 0x83

def kErrUnsupportedCmd : UInt8 := 1
def kErrNotFound : UInt8 := 2
def kErrTableFull : UInt8 := 3
def kErrBadState : UInt8 := 4
def kErrFileIoError : UInt8 := 5
def kErrIllegalArg : UInt8 := 6

/-! ## Framing -/

/-- `<` -/
def kFrameToDevice : UInt8 := 0x3C

/-- `>` -/
def kFrameToApp : UInt8 := 0x3E

def kMaxFrameSize : Nat := 8192

/-- The de-framer's buffer. -/
structure FrameReader where
  buf : Bytes := []
  deriving DecidableEq

namespace FrameReader

def feed (r : FrameReader) (data : Bytes) : FrameReader := { buf := r.buf ++ data }

/-- The next complete frame of a buffer, and what is left of it. -/
def scan : Bytes → Option Bytes × Bytes
  | [] => (none, [])
  | marker :: rest =>
      if marker ≠ kFrameToDevice ∧ marker ≠ kFrameToApp then scan rest
      else
        let (len, r) := (Reader.ofBytes rest).u16
        if !r.ok then (none, marker :: rest)
        else if kMaxFrameSize < len.toNat then scan rest
        else
          let (body, r) := r.take len.toNat
          if !r.ok then (none, marker :: rest) else (some body, r.rest.1)

def next (r : FrameReader) : Option Bytes × FrameReader :=
  let (frame, buf) := scan r.buf
  (frame, { buf })

end FrameReader

def frameResponse (payload : Bytes) : Bytes :=
  [kFrameToApp] ++ putU16 (UInt16.ofNat payload.length) ++ payload

theorem length_frameResponse (payload : Bytes) :
    (frameResponse payload).length = payload.length + 3 := by
  simp [frameResponse, putU16]

def respOk : Bytes := [kRespOk]

def respOkWith (value : UInt32) : Bytes := [kRespOk] ++ putU32 value

def respErr (code : UInt8) : Bytes := [kRespErr, code]

end Coreletd.Companion
