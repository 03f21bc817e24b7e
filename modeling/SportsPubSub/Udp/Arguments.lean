import SportsPubSub.Lib.Strtoul
import SportsPubSub.Udp.Publisher

/-!
# The command lines of the UDP programs

Source: the first part of `main` in udp_C/broker_udp.c, publisher_udp.c and
subscriber_udp.c, up to the port that is handed to `htons`. The arguments are those
behind `argv[0]`. All numbers pass the same test of what `strtoul` returned. That test
cannot see that a number was negated modulo 2 ^ 64, so a few numerals behind a minus sign
are taken for ports; all others are read as what they say.
-/
namespace SportsPubSub.Udp.Arguments
open Lib.Posix Lib.Strtoul Protocol Publisher

/-- What is written to stderr, with the values it prints. -/
inductive Rechazo where
  | uso
  | puertoInvalido (arg : Bytes)
  | valorInvalidoParaN
  | argumentoDesconocido (arg : Bytes)
  | tema (fallo : Fallo)
  deriving DecidableEq, Repr

/-- `end == s || *end != '\0' || v == 0UL || v > max`. -/
def checkNumber (max : UInt64) (s : CString) : Option UInt64 :=
  let (v, stop) := strtoul s
  if stop = 0 ∨ s.at stop ≠ 0 ∨ v = 0 ∨ v > max then none else some v

/-- The test of a port, and the cast to 16 bits. -/
def checkPort (arg : CString) : Except Rechazo UInt16 :=
  match checkNumber 65535 arg with
  | none => .error (.puertoInvalido arg.bytes)
  | some p => .ok p.toUInt16

/-- `main` of broker_udp.c. -/
def brokerPort : List CString → Except Rechazo UInt16
  | [] => .ok pubsubUdpDefaultPort
  | [arg] => checkPort arg
  | _ => .error .uso

theorem checkNumber_eq_some (max : UInt64) (s : CString) (v : UInt64) :
    checkNumber max s = some v ↔ (0 < v.toNat ∧ v.toNat ≤ max.toNat) ∧
      (strtoul s).2 ≠ 0 ∧ s.at (strtoul s).2 = 0 ∧ (strtoul s).1 = v := by
  constructor
  · intro accepted
    simp only [checkNumber, Option.ite_none_left_eq_some, Option.some.injEq, not_or,
      not_not] at accepted
    obtain ⟨⟨moved, whole, nonzero, small⟩, rfl⟩ := accepted
    refine ⟨⟨?_, ?_⟩, moved, whole, rfl⟩
    · exact Nat.pos_of_ne_zero fun zero => nonzero (UInt64.toNat_inj.mp zero)
    · exact Nat.not_lt.mp fun large => small (UInt64.lt_iff_toNat_lt.mpr large)
  · rintro ⟨⟨pos, small⟩, moved, whole, rfl⟩
    refine if_neg ?_
    rintro (stays | more | zero | large)
    · exact moved stays
    · exact more whole
    · have none : (strtoul s).1 = 0 := zero
      rw [none] at pos
      exact absurd pos (by decide)
    · exact Nat.not_lt.mpr small (UInt64.lt_iff_toNat_lt.mp large)

theorem checkNumber_range (max : UInt64) (s : CString) (v : UInt64)
    (accepted : checkNumber max s = some v) : 0 < v.toNat ∧ v.toNat ≤ max.toNat :=
  ((checkNumber_eq_some max s v).mp accepted).1

/-- The variables of publisher_udp.c before the options. -/
def defaultOptions : Options := ⟨12, false, false, false, false, by decide, by decide⟩

/-- The options that have no value. -/
def flagOption (options : Options) (arg : Bytes) : Except Rechazo Options :=
  if strcmpEq arg (ascii "-f") then .ok { options with fastBurst := true }
  else if strcmpEq arg (ascii "-r") then .ok { options with randomSkipSleep := true }
  else if strcmpEq arg (ascii "-q") then .ok { options with quiet := true }
  else if strcmpEq arg (ascii "-d") then .ok { options with deterministic := true }
  else .error (.argumentoDesconocido arg)

/-- The loop over `argv[4 ..]`; a last `-n` has no value and is not known. -/
def parseOptions (options : Options) : List CString → Except Rechazo Options
  | [] => .ok options
  | [arg] => flagOption options arg.bytes
  | arg :: value :: rest =>
      if strcmpEq arg.bytes (ascii "-n") then
        match accepted : checkNumber 100000 value with
        | none => .error .valorInvalidoParaN
        | some v =>
            parseOptions { options with
              autoCount := v.toNat
              count_pos := (checkNumber_range 100000 value v accepted).1
              count_le := (checkNumber_range 100000 value v accepted).2 } rest
      else
        match flagOption options arg.bytes with
        | .error rechazo => .error rechazo
        | .ok next => parseOptions next (value :: rest)

/-- What `main` of publisher_udp.c goes on with. -/
structure PublisherArguments where
  options : Options
  brokerIp : CString
  port : UInt16
  topic : CString

/-- `main` of publisher_udp.c: the options come before the port and the topic. -/
def publisherArguments : List CString → Except Rechazo PublisherArguments
  | brokerIp :: portArg :: topic :: rest => do
      let options ← parseOptions defaultOptions rest
      let port ← checkPort portArg
      let _ ← (checkTopic topic.bytes).mapError Rechazo.tema
      return ⟨options, brokerIp, port, topic⟩
  | _ => .error .uso

/-- What `main` of subscriber_udp.c goes on with; the topics are not checked yet. -/
structure SubscriberArguments where
  brokerIp : CString
  port : UInt16
  topics : List CString

/-- `main` of subscriber_udp.c. -/
def subscriberArguments : List CString → Except Rechazo SubscriberArguments
  | brokerIp :: portArg :: topic :: topics => do
      let port ← checkPort portArg
      return ⟨brokerIp, port, topic :: topics⟩
  | _ => .error .uso

/-- A command line of one of the programs in which the port is left open and nothing else
is refused. -/
inductive CommandLine where
  | broker
  | publisher (brokerIp topic : CString) (rest : List CString) (options : Options)
      (parsed : parseOptions defaultOptions rest = .ok options)
      (named : checkTopic topic.bytes = .ok ())
  | subscriber (brokerIp topic : CString) (topics : List CString)

/-- The port that the program goes on with. -/
def CommandLine.port (line : CommandLine) (arg : CString) : Except Rechazo UInt16 :=
  match line with
  | .broker => brokerPort [arg]
  | .publisher brokerIp topic rest _ _ _ =>
      (publisherArguments (brokerIp :: arg :: topic :: rest)).map PublisherArguments.port
  | .subscriber brokerIp topic topics =>
      (subscriberArguments (brokerIp :: arg :: topic :: topics)).map SubscriberArguments.port

/-- The argument is taken for a port exactly when it is the numeral of one, and then for
this one. -/
def PortExact (line : CommandLine) (arg : CString) : Prop :=
  ∀ port : UInt16, line.port arg = .ok port ↔
    ∃ value, Numeral arg.bytes value ∧ 1 ≤ value ∧ value ≤ 65535 ∧ (port.toNat : Int) = value

/-- The numerals that negation modulo 2 ^ 64 takes to a port. -/
def Wraps (arg : CString) : Prop :=
  ∃ value, Numeral arg.bytes value ∧
    -18446744073709551616 < value ∧ value ≤ -18446744073709551616 + 65535

theorem CommandLine.port_eq (line : CommandLine) (arg : CString) :
    line.port arg = checkPort arg := by
  cases line with
  | broker => rfl
  | publisher brokerIp topic rest options parsed named =>
    simp only [CommandLine.port, publisherArguments, parsed, named]
    cases checkPort arg with
    | error rechazo => rfl
    | ok port => rfl
  | subscriber brokerIp topic topics =>
    simp only [CommandLine.port, subscriberArguments]
    cases checkPort arg with
    | error rechazo => rfl
    | ok port => rfl

/-- The numbers that pass the test, for a bound below the number that an overflow gives. -/
theorem checkNumber_iff (max : UInt64) (s : CString) (v : UInt64) (bound : max.toNat < ulongMax) :
    checkNumber max s = some v ↔ (0 < v.toNat ∧ v.toNat ≤ max.toNat) ∧
      ∃ value, Numeral s.bytes value ∧
        ((v.toNat : Int) = value ∨ (v.toNat : Int) = value + 18446744073709551616) := by
  rw [checkNumber_eq_some]
  apply and_congr_right
  rintro ⟨pos, small⟩
  exact strtoul_reads_iff s v pos (Nat.lt_of_le_of_lt small bound)

theorem checkPort_iff (arg : CString) (port : UInt16) :
    checkPort arg = .ok port ↔ 0 < port.toNat ∧
      ∃ value, Numeral arg.bytes value ∧
        ((port.toNat : Int) = value ∨ (port.toNat : Int) = value + 18446744073709551616) := by
  have bound : (65535 : UInt64).toNat < ulongMax := by decide
  constructor
  · intro accepted
    unfold checkPort at accepted
    split at accepted
    · cases accepted
    · next p passed =>
      cases accepted
      obtain ⟨⟨pos, small⟩, numeral⟩ := (checkNumber_iff 65535 arg p bound).mp passed
      have kept : p.toUInt16.toNat = p.toNat := by
        rw [UInt64.toNat_toUInt16]
        have small' : p.toNat ≤ 65535 := small
        omega
      rw [kept]
      exact ⟨pos, numeral⟩
  · rintro ⟨pos, numeral⟩
    have kept : port.toUInt64.toNat = port.toNat := UInt16.toNat_toUInt64 port
    have small : port.toUInt64.toNat ≤ (65535 : UInt64).toNat := by
      rw [kept]
      exact Nat.le_of_lt_succ port.toNat_lt
    rw [← kept] at pos numeral
    have passed := (checkNumber_iff 65535 arg port.toUInt64 bound).mpr ⟨⟨pos, small⟩, numeral⟩
    simp only [checkPort, passed, UInt16.toUInt16_toUInt64]

/-- The port is parsed exactly unless the argument wraps around. -/
theorem portExact_iff (line : CommandLine) (arg : CString) : PortExact line arg ↔ ¬ Wraps arg := by
  constructor
  · rintro parsed ⟨value, numeral, low, high⟩
    have small : (value + 18446744073709551616).toNat < 65536 := by omega
    have port : ((UInt16.ofNat (value + 18446744073709551616).toNat).toNat : Int) =
        value + 18446744073709551616 := by
      rw [UInt16.toNat_ofNat_of_lt' small]
      omega
    have accepted : line.port arg =
        .ok (UInt16.ofNat (value + 18446744073709551616).toNat) := by
      rw [line.port_eq, checkPort_iff]
      exact ⟨by omega, value, numeral, .inr port⟩
    obtain ⟨other, numeral', positive, -⟩ := (parsed _).mp accepted
    have same := numeral.unique numeral'
    omega
  · intro straight port
    have limit := port.toNat_lt
    rw [line.port_eq, checkPort_iff]
    constructor
    · rintro ⟨pos, value, numeral, same | wrapped⟩
      · exact ⟨value, numeral, by omega, by omega, same⟩
      · exact absurd ⟨value, numeral, by omega, by omega⟩ straight
    · rintro ⟨value, numeral, low, -, same⟩
      exact ⟨by omega, value, numeral, .inl same⟩

/-- The negative number that is 1 modulo 2 ^ 64. -/
def wrappedPort : CString := ⟨ascii "-18446744073709551615", by decide⟩

/-- It is far below the range of a port, and is taken for port 1. -/
theorem negative_port_accepted :
    Numeral wrappedPort.bytes (-18446744073709551615) ∧ brokerPort [wrappedPort] = .ok 1 ∧
      ¬ PortExact .broker wrappedPort := by
  have numeral : Numeral wrappedPort.bytes (-18446744073709551615) :=
    (numeral_iff _ _).mpr ⟨by decide, by decide, by decide⟩
  have accepted : brokerPort [wrappedPort] = .ok 1 := by decide
  refine ⟨numeral, accepted, ?_⟩
  intro parsed
  obtain ⟨value, other, positive, -⟩ := (parsed 1).mp accepted
  have same := numeral.unique other
  omega

example : (publisherArguments [⟨ascii "10.0.0.1", by decide⟩, ⟨ascii " +9000", by decide⟩,
    ⟨ascii "A_vs_B", by decide⟩, ⟨ascii "-n", by decide⟩, ⟨ascii "3", by decide⟩,
    ⟨ascii "-d", by decide⟩]).map (fun a => (a.port, a.options.autoCount)) = .ok (9000, 3) := by
  decide

end SportsPubSub.Udp.Arguments
