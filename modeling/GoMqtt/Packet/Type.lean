import Mathlib

namespace GoMqtt.Packet

/-- `packet.Type`; Lean reserves the name `Type`. The raw nibble of a header, which can
also be `0` or `15`, stays a `UInt8` where the code handles it before `New` or `Valid`. -/
inductive PacketType
  | connect | connack | publish | puback | pubrec | pubrel | pubcomp
  | subscribe | suback | unsubscribe | unsuback | pingreq | pingresp | disconnect
  deriving DecidableEq, Repr

namespace PacketType

def toByte : PacketType → UInt8
  | connect => 1
  | connack => 2
  | publish => 3
  | puback => 4
  | pubrec => 5
  | pubrel => 6
  | pubcomp => 7
  | subscribe => 8
  | suback => 9
  | unsubscribe => 10
  | unsuback => 11
  | pingreq => 12
  | pingresp => 13
  | disconnect => 14

/-- The constant named by a byte, if any: the cases `Type.New` accepts. -/
def ofByte (b : UInt8) : Option PacketType :=
  [connect, connack, publish, puback, pubrec, pubrel, pubcomp, subscribe, suback, unsubscribe,
    unsuback, pingreq, pingresp, disconnect].find? (fun t => t.toByte == b)

def defaultFlags : PacketType → UInt8
  | pubrel => 2
  | subscribe => 2
  | unsubscribe => 2
  | _ => 0

def valid (b : UInt8) : Bool := b ≥ 1 && b ≤ 14

@[simp]
theorem ofByte_toByte (t : PacketType) : ofByte t.toByte = some t := by
  cases t <;> rfl

end PacketType

def QOSAtMostOnce : UInt8 := 0
def QOSAtLeastOnce : UInt8 := 1
def QOSExactlyOnce : UInt8 := 2
def QOSFailure : UInt8 := 0x80

def validQOS (qos : UInt8) : Bool :=
  qos == QOSAtMostOnce || qos == QOSAtLeastOnce || qos == QOSExactlyOnce

theorem validQOS_iff (qos : UInt8) : validQOS qos = true ↔ qos.toNat ≤ 2 := by
  simp only [validQOS, QOSAtMostOnce, QOSAtLeastOnce, QOSExactlyOnce, Bool.or_eq_true,
    beq_iff_eq, ← UInt8.toNat_inj]
  simp
  omega

theorem qos_cases (q : UInt8) : q = 0 ∨ q = 1 ∨ q = 2 ∨ 2 < q.toNat := by
  have := q.toNat_lt
  simp only [← UInt8.toNat_inj]
  simp
  omega

def connackCodeValid (cc : UInt8) : Bool := cc ≤ 5

def ConnectionAccepted : UInt8 := 0

/-- The errors of the codec, one constructor per `fmt.Errorf` or `errors.New` text, with the
values the text prints. -/
inductive CodecError
  | insufficientBuffer (t : PacketType) (expected got : Nat)
  | remainingLengthOutOfBound (t : PacketType) (rl : Int)
  | invalidType (t : PacketType) (decoded : UInt8)
  | invalidFlags (t : PacketType) (expected got : UInt8)
  | errorReadingRemainingLength (t : PacketType)
  | remainingLengthExceedsBuffer (t : PacketType) (rl : Int) (rest : Nat)
  | lengthTooLarge (t : PacketType) (n : Nat)
  | invalidProtocolVersion (version : UInt8)
  | invalidProtocolName (name : List UInt8)
  | reservedBitSet
  | invalidWillQOS (qos : UInt8)
  | willFlagsWithoutWill (willRetain : Bool) (willQOS : UInt8)
  | passwordFlagWithoutUsername
  | cleanSessionRequired
  | unsupportedProtocolVersion (version : UInt8)
  | willTopicEmpty
  | invalidWillQOSLevel (qos : UInt8)
  | passwordWithoutUsername
  | expectedRemainingLength2 (t : PacketType)
  | acknowledgeFlagsSet
  | invalidReturnCode (code : UInt8)
  | invalidQOS (qos : UInt8)
  | invalidQOSLevel (qos : UInt8)
  | zeroPacketID (t : PacketType)
  | topicEmpty
  | remainingLengthNotAbove2 (rl : Int)
  | invalidSubackCode (code : UInt8) (index : Nat)
  | emptySubscriptionList
  | emptyTopicList
  | expectedZeroRemainingLength (t : PacketType)
  | invalidPacketType (t : UInt8)
  deriving DecidableEq, Repr

/-- What a codec function returns: its result, or the count it reports together with an
error, or a Go runtime panic. -/
inductive Outcome (α : Type)
  | ok (a : α)
  | error (n : Int) (e : CodecError)
  | panic
  deriving DecidableEq, Repr

namespace Outcome

variable {α β γ : Type}

def bind : Outcome α → (α → Outcome β) → Outcome β
  | ok a, f => f a
  | error n e, _ => error n e
  | panic, _ => panic

instance : Monad Outcome where
  pure := ok
  bind := bind

/-- A read at offset `total`: `total += n` precedes `if err != nil` in every decoder, so an
error reports `total` plus the reader's own count. -/
def offset (total : Nat) : Outcome α → Outcome α
  | error n e => error (total + n) e
  | x => x

@[simp]
theorem pure_eq_ok (a : α) : (pure a : Outcome α) = ok a := rfl

@[simp]
theorem ok_bind (a : α) (f : α → Outcome β) : (ok a >>= f) = f a := rfl

@[simp]
theorem error_bind (n : Int) (e : CodecError) (f : α → Outcome β) :
    (error n e >>= f) = error n e := rfl

@[simp]
theorem panic_bind (f : α → Outcome β) : (panic >>= f) = panic := rfl

@[simp]
theorem offset_ok (total : Nat) (a : α) : (ok a).offset total = ok a := rfl

def map (f : α → β) : Outcome α → Outcome β
  | ok a => ok (f a)
  | error n e => error n e
  | panic => panic

@[simp]
theorem map_ok (f : α → β) (a : α) : (ok a).map f = ok (f a) := rfl

theorem bind_eq_ok {x : Outcome α} {f : α → Outcome β} {b : β} :
    (x >>= f) = ok b ↔ ∃ a, x = ok a ∧ f a = ok b := by
  cases x with
  | ok a => simp
  | error n e => simp
  | panic => simp

theorem offset_eq_ok {x : Outcome α} {total : Nat} {a : α} : x.offset total = ok a ↔ x = ok a := by
  cases x <;> simp [offset]

def isOk : Outcome α → Bool
  | ok _ => true
  | _ => false

@[simp]
theorem isOk_ok (a : α) : (ok a).isOk = true := rfl

theorem isOk_iff {x : Outcome α} : x.isOk = true ↔ ∃ a, x = ok a := by
  cases x <;> simp [isOk]

@[simp]
theorem isOk_map (f : α → β) (x : Outcome α) : (x.map f).isOk = x.isOk := by
  cases x <;> rfl

theorem map_eq_ok {x : Outcome α} {f : α → β} {b : β} :
    x.map f = ok b ↔ ∃ a, x = ok a ∧ f a = b := by
  cases x <;> simp [map]

theorem guard_eq_ok {c : Prop} [Decidable c] {n : Int} {e : CodecError} {f : Unit → Outcome β}
    {b : β} : (if c then (error n e >>= f) else f ()) = ok b ↔ ¬c ∧ f () = ok b := by
  by_cases hc : c <;> simp [hc]

theorem ite_bind_eq_ok {c : Prop} [Decidable c] {x : Outcome (List γ)} {o : List γ}
    {k : List γ → Outcome β} {b : β} (h : (if c then (x >>= fun l => k (o ++ l)) else k o) = ok b) :
    ∃ l, (if c then x = ok l else l = []) ∧ k (o ++ l) = ok b := by
  by_cases hc : c
  · rw [if_pos hc] at h
    obtain ⟨l, hx, h⟩ := bind_eq_ok.mp h
    exact ⟨l, by rwa [if_pos hc], h⟩
  · rw [if_neg hc] at h
    exact ⟨[], by rw [if_neg hc], by rwa [List.append_nil]⟩

end Outcome

structure Message where
  topic : List UInt8
  payload : List UInt8
  qos : UInt8
  retain : Bool
  deriving DecidableEq, Repr

end GoMqtt.Packet
