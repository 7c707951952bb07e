/-
# The companion's server

One client at a time, a reader for what it sends and a buffer for what it is
sent. What is queued for a client that does not drain it is bounded: the frame
that would exceed the bound costs the client its connection.

Connections are numbered. The trace, newest first, records what was appended to a
client's buffer and what was written to its socket; no decision reads it.
-/

import Coreletd.Companion.Frames

namespace Coreletd.Companion

/-- What a write to the client comes to. `wrote` is one byte and some more, and
`failed` is anything but a would-block or an interruption. -/
inductive WriteResult where
  | wrote (more : Nat)
  | wouldBlock
  | interrupted
  | failed
  deriving DecidableEq

/-- What a read from it comes to. -/
inductive ReadResult where
  | data (bytes : Bytes)
  | closed
  | wouldBlock
  | interrupted
  | failed
  deriving DecidableEq

inductive ServerEvent where
  | accepted (client : Nat)
  | appended (client : Nat) (frame : Bytes)
  | wrote (client : Nat) (bytes : Bytes)
  | dropped (client : Nat)
  deriving DecidableEq

structure Server where
  maxOutboundBytes : Nat := 256 * 1024
  /-- The connected client. -/
  client : Option Nat := none
  nextClient : Nat := 0
  reader : FrameReader := {}
  outBuf : Bytes := []
  /-- Whether writability is waited for. -/
  watchesOut : Bool := false
  /-- How the writes to come will go. -/
  kernel : List WriteResult := []
  trace : List ServerEvent := []
  deriving DecidableEq

namespace Server

def connected (s : Server) : Bool := s.client.isSome

/-- `outbound_buffer_has_capacity`, which the code writes so that nothing
overflows. -/
def outboundBufferHasCapacity (buffered next limit : Nat) : Bool :=
  decide (buffered ≤ limit) && decide (next ≤ limit - buffered)

def dropClient (s : Server) : Server :=
  match s.client with
  | none => s
  | some client =>
      { s with
        client := none
        reader := {}
        outBuf := []
        watchesOut := false
        trace := .dropped client :: s.trace }

/-- Write until the buffer is empty or the kernel's is full. Behind the answers we
know of, it is full. -/
def flushWith (s : Server) : List WriteResult → Server
  | [] =>
      { s with kernel := [], watchesOut := s.connected && !s.outBuf.isEmpty }
  | result :: kernel =>
      match s.client with
      | none => { s with kernel := result :: kernel }
      | some client =>
          if s.outBuf = [] then { s with kernel := result :: kernel, watchesOut := false }
          else
            match result with
            | .wrote more =>
                flushWith { s with
                  outBuf := s.outBuf.drop (more + 1)
                  trace := .wrote client (s.outBuf.take (more + 1)) :: s.trace } kernel
            | .wouldBlock => { s with kernel, watchesOut := true }
            | .interrupted => flushWith s kernel
            | .failed => { s with kernel }.dropClient

def flush (s : Server) : Server := s.flushWith s.kernel

/-- Queue a frame for the client, if there is one. -/
def send (s : Server) (payload : Bytes) : Server :=
  match s.client with
  | none => s
  | some client =>
      let framed := frameResponse payload
      if !outboundBufferHasCapacity s.outBuf.length framed.length s.maxOutboundBytes then
        s.dropClient
      else
        { s with outBuf := s.outBuf ++ framed, trace := .appended client framed :: s.trace }.flush

/-- A new connection replaces the old one, and is given up if it cannot be made
non-blocking. -/
def acceptClient (s : Server) (nonblocking : Bool) : Server :=
  let s := s.dropClient
  if !nonblocking then s
  else
    { s with
      client := some s.nextClient
      nextClient := s.nextClient + 1
      reader := {}
      outBuf := []
      trace := .accepted s.nextClient :: s.trace }

end Server

end Coreletd.Companion
