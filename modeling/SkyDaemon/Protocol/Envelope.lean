import SkyDaemon.Protocol.Sign

/-! The wire envelope: construction, signature and freshness check. Timestamps
are 64-bit and every operation on them wraps, as in a release build. -/
namespace SkyDaemon.Protocol

/-- `payload` is the raw JSON text exactly as transmitted. -/
structure Envelope where
  kind : String
  timestamp : Int64
  nonce : String
  payload : String
  sig : String
  deriving DecidableEq

def nanosPerSec : Nat := 1000000000

/-- One instant as the process sees it, both clocks in nanoseconds. The kernel
keeps wall time as a signed 64-bit count of nanoseconds. -/
structure Clock where
  wall : Nat
  mono : Nat
  wall_lt : wall < 2 ^ 63

/-- `as_secs` truncates; the cast to `i64` is exact in the clock's range. -/
def nowUnix (clock : Clock) : Int64 := Int64.ofNat (clock.wall / nanosPerSec)

def maxClockSkewSecs : Int64 := 30

def timestampIsFresh (now timestamp : Int64) : Bool :=
  decide ((now - timestamp).abs ≤ maxClockSkewSecs)

/-- `random_nonce` over the sixteen random bytes it draws. -/
def randomNonce (bytes : Vector UInt8 16) : String := Text.hexEncode bytes.toList

/-- `payload` is the JSON text that serialization produced. -/
def Envelope.signed (prims : Primitives) (secret : List UInt8) (kind payload : String)
    (clock : Clock) (random : Vector UInt8 16) : Envelope :=
  let timestamp := nowUnix clock
  let nonce := randomNonce random
  { kind, timestamp, nonce, payload,
    sig := sign prims secret kind timestamp nonce (Text.bytes payload) }

def Envelope.verify (envelope : Envelope) (prims : Primitives) (clock : Clock)
    (secret : List UInt8) : Bool :=
  if !timestampIsFresh (nowUnix clock) envelope.timestamp then false
  else Protocol.verify prims secret envelope.kind envelope.timestamp envelope.nonce
    (Text.bytes envelope.payload) envelope.sig

theorem Envelope.verify_iff {envelope : Envelope} : envelope.verify prims clock secret = true ↔
    timestampIsFresh (nowUnix clock) envelope.timestamp = true ∧
      sign prims secret envelope.kind envelope.timestamp envelope.nonce
        (Text.bytes envelope.payload) = envelope.sig := by
  rw [Envelope.verify, ← Protocol.verify_iff]
  cases timestampIsFresh (nowUnix clock) envelope.timestamp <;> simp

end SkyDaemon.Protocol
