import SkyDaemon.Foundation.Text

/-! Envelope signatures. The digest and the keyed digest come from other crates
and are parameters here; everything around them is `sign.rs`. -/
namespace SkyDaemon.Protocol

structure Primitives where
  sha256 : List UInt8 → List UInt8
  hmacSha256 : List UInt8 → List UInt8 → List UInt8

/-- The string that gets signed: `type.timestamp.nonce.sha256(payload)`. -/
def canonicalString (prims : Primitives) (kind : String) (timestamp : Int64) (nonce : String)
    (payloadBytes : List UInt8) : String :=
  let payloadHash := Text.hexEncode (prims.sha256 payloadBytes)
  kind ++ "." ++ timestamp.toInt.repr ++ "." ++ nonce ++ "." ++ payloadHash

def sign (prims : Primitives) (secret : List UInt8) (kind : String) (timestamp : Int64)
    (nonce : String) (payloadBytes : List UInt8) : String :=
  Text.hexEncode (prims.hmacSha256 secret
    (Text.bytes (canonicalString prims kind timestamp nonce payloadBytes)))

def verify (prims : Primitives) (secret : List UInt8) (kind : String) (timestamp : Int64)
    (nonce : String) (payloadBytes : List UInt8) (sigHex : String) : Bool :=
  Text.bytes (sign prims secret kind timestamp nonce payloadBytes) == Text.bytes sigHex

theorem verify_iff : verify prims secret kind timestamp nonce payload sigHex = true ↔
    sign prims secret kind timestamp nonce payload = sigHex := by
  rw [verify, beq_iff_eq]
  exact Text.bytes_injective.eq_iff

theorem canonicalString_toList (prims : Primitives) (kind : String) (timestamp : Int64)
    (nonce : String) (payload : List UInt8) :
    (canonicalString prims kind timestamp nonce payload).toList =
      Text.joined '.' kind.toList timestamp.toInt.repr.toList nonce.toList
        (Text.hexEncode (prims.sha256 payload)).toList := by
  simp [canonicalString, Text.joined, String.toList_append]

end SkyDaemon.Protocol
