import SkyDaemon.Protocol.Envelope
import SkyDaemon.Protocol.Payloads

/-! The signature binds type, timestamp, nonce and payload. The verifier accepts
arbitrary strings off the wire, so dots may be moved between the fields; a
string signed by an honest party has exactly three of them, which leaves none
for the other side to hide in its type or nonce. -/
namespace SkyDaemon.Protocol

theorem EnvelopeType.no_dot : ∀ kind ∈ EnvelopeType.all, '.' ∉ kind.toList := by decide

theorem randomNonce_no_dot (random : Vector UInt8 16) : '.' ∉ (randomNonce random).toList :=
  Text.hexEncode_no_dot _

theorem canonicalString_unique (prims : Primitives) (sha : Function.Injective prims.sha256)
    (plainKind : '.' ∉ kind.toList) (plainNonce : '.' ∉ nonce.toList)
    (same : canonicalString prims kind timestamp nonce payload =
      canonicalString prims kind' timestamp' nonce' payload') :
    kind = kind' ∧ timestamp = timestamp' ∧ nonce = nonce' ∧ payload = payload' := by
  have chars := congrArg String.toList same
  rw [canonicalString_toList, canonicalString_toList] at chars
  obtain ⟨sameKind, sameTime, sameNonce, sameHash⟩ := Text.joined_unique plainKind plainNonce
    (Text.int_repr_no_dot _) (Text.hexEncode_no_dot _) (Text.int_repr_no_dot _)
    (Text.hexEncode_no_dot _) chars
  have time : timestamp.toInt = timestamp'.toInt :=
    Int.repr_injective (String.toList_injective sameTime)
  have digest := Text.hexEncode_injective (String.toList_injective sameHash)
  exact ⟨String.toList_injective sameKind, Int64.toInt_inj.mp time,
    String.toList_injective sameNonce, sha digest⟩

theorem sign_unique (prims : Primitives) (sha : Function.Injective prims.sha256)
    (mac : Function.Injective (prims.hmacSha256 secret))
    (plainKind : '.' ∉ kind.toList) (plainNonce : '.' ∉ nonce.toList)
    (same : sign prims secret kind timestamp nonce payload =
      sign prims secret kind' timestamp' nonce' payload') :
    kind = kind' ∧ timestamp = timestamp' ∧ nonce = nonce' ∧ payload = payload' := by
  have message := Text.bytes_injective (mac (Text.hexEncode_injective same))
  exact canonicalString_unique prims sha plainKind plainNonce message

/-- Equal canonical strings come from equal tuples, and an envelope that carries
an honest signature and verifies is the honest envelope itself. -/
theorem signature_binds_fields (prims : Primitives) (secret : List UInt8)
    (sha : Function.Injective prims.sha256)
    (mac : Function.Injective (prims.hmacSha256 secret)) :
    (∀ (kind : String) (timestamp : Int64) (nonce : String) (payload : List UInt8)
        (kind' : String) (timestamp' : Int64) (nonce' : String) (payload' : List UInt8),
      '.' ∉ kind.toList → '.' ∉ nonce.toList →
      canonicalString prims kind timestamp nonce payload =
        canonicalString prims kind' timestamp' nonce' payload' →
      kind = kind' ∧ timestamp = timestamp' ∧ nonce = nonce' ∧ payload = payload') ∧
    (∀ (kind payload : String) (signedAt : Clock) (random : Vector UInt8 16)
        (clock : Clock) (envelope : Envelope),
      '.' ∉ kind.toList →
      envelope.sig = (Envelope.signed prims secret kind payload signedAt random).sig →
      envelope.verify prims clock secret = true →
      envelope = Envelope.signed prims secret kind payload signedAt random) := by
  refine ⟨fun _ _ _ _ _ _ _ _ plainKind plainNonce same =>
    canonicalString_unique prims sha plainKind plainNonce same, ?_⟩
  intro kind payload signedAt random clock envelope plainKind captured verified
  have signature := (Envelope.verify_iff.mp verified).2
  obtain ⟨sameKind, sameTime, sameNonce, samePayload⟩ :=
    sign_unique prims sha mac plainKind (randomNonce_no_dot random)
      (captured.symm.trans signature.symm)
  obtain ⟨envKind, envTime, envNonce, envPayload, envSig⟩ := envelope
  simp only at sameKind sameTime sameNonce samePayload captured
  have sameText : payload = envPayload := Text.bytes_injective samePayload
  subst sameKind sameTime sameNonce sameText captured
  rfl

def recordedClock : Clock := ⟨1700000000000000000, 0, by decide⟩

def recordedRandom : Vector UInt8 16 := #v[0, 1, 2, 3, 4, 5, 6, 7, 8, 9, 10, 11, 12, 13, 14, 15]

def recordedSecret : List UInt8 := Text.bytes "s"

def recordedDigest : List UInt8 :=
  [0x44, 0x13, 0x6f, 0xa3, 0x55, 0xb3, 0x67, 0x8a, 0x11, 0x46, 0xad, 0x16, 0xf7, 0xe8, 0x64, 0x9e,
    0x94, 0xfb, 0x4f, 0xc2, 0x1f, 0xe7, 0x7e, 0x83, 0x10, 0xc0, 0x60, 0xf6, 0x1c, 0xaa, 0xff, 0x8a]

def recordedMac : List UInt8 :=
  [0x4a, 0x23, 0xa8, 0x01, 0x9b, 0x0c, 0xdf, 0x9e, 0xec, 0xbf, 0x39, 0xed, 0x16, 0x04, 0xee, 0x1f,
    0xdd, 0x5a, 0x61, 0x96, 0x1b, 0xc6, 0x39, 0xfb, 0xb9, 0x2c, 0xc6, 0xd8, 0x83, 0xe0, 0x98, 0x7f]

def recordedMessage : List UInt8 := Text.bytes
  "event.1700000000.000102030405060708090a0b0c0d0e0f.44136fa355b3678a1146ad16f7e8649e94fb4fc21fe77e8310c060f61caaff8a"

/-- The value recorded at one input and an injective tag everywhere else. -/
def recordedAt (input output : List UInt8) (message : List UInt8) : List UInt8 :=
  if message = input then output else 0 :: message

theorem recordedAt_injective (marked : output.head? ≠ some 0) :
    Function.Injective (recordedAt input output) := by
  intro a b same
  unfold recordedAt at same
  split at same <;> split at same
  · rename_i left right
    rw [left, right]
  · subst same
    exact absurd rfl marked
  · subst same
    exact absurd rfl marked
  · exact (List.cons.inj same).2

/-- The real digests of one signed event. -/
def recordedPrimitives : Primitives where
  sha256 := recordedAt (Text.bytes "\x7b\x7d") recordedDigest
  hmacSha256 := fun _ => recordedAt recordedMessage recordedMac

def recordedEvent : Envelope :=
  Envelope.signed recordedPrimitives recordedSecret EnvelopeType.event "\x7b\x7d" recordedClock recordedRandom

theorem signature_binds_recorded_event :
    Text.hexEncode recordedMac = recordedEvent.sig ∧
    recordedEvent.verify recordedPrimitives recordedClock recordedSecret = true ∧
    recordedEvent = Envelope.signed recordedPrimitives recordedSecret EnvelopeType.event "\x7b\x7d"
      recordedClock recordedRandom := by
  have signed : Text.hexEncode recordedMac = recordedEvent.sig := by decide
  have verified : recordedEvent.verify recordedPrimitives recordedClock recordedSecret = true := by
    decide
  exact ⟨signed, verified, (signature_binds_fields recordedPrimitives recordedSecret
    (recordedAt_injective (by decide)) (recordedAt_injective (by decide))).2
      EnvelopeType.event "\x7b\x7d"
      recordedClock recordedRandom recordedClock recordedEvent
      (EnvelopeType.no_dot _ (by decide)) rfl verified⟩

end SkyDaemon.Protocol
