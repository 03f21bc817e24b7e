import SportsPubSub.Lib.LittleEndian
import SportsPubSub.Udp.Arguments
import SportsPubSub.Udp.Subscriber

/-!
# The UDP subscriber from its command line to the terminal

Source: udp_C/subscriber_udp.c, `main` with `send_sub` and all that is printed. The
calls whose outcome is not up to the program are inputs: `socket`, `inet_pton`, `sendto`
and `recvfrom`. `setvbuf`, `fflush` and `close` are left out. A message that takes
several calls of `printf` is one text.
-/
namespace SportsPubSub.Udp.SubscriberMain
open Lib.Posix Lib.Decimal Lib.LittleEndian Lib.Strtoul Lib.Reactive Protocol Subscriber
open Arguments (subscriberArguments)

/-- `htons` and `ntohs`: the bytes of the number in the other order. -/
def htons (port : UInt16) : UInt16 := UInt16.ofNat (leNat (leBytes 2 port.toNat).reverse)

/-- `inet_ntop` of an IPv4 address: its four bytes in decimal. -/
def inetNtop (addr : UInt32) : Bytes :=
  match wordBytes addr with
  | [a, b, c, d] =>
      decimal a.toNat ++ ascii "." ++ decimal b.toNat ++ ascii "." ++ decimal c.toNat ++
        ascii "." ++ decimal d.toNat
  | _ => []

/-- `%s:%u`, the arguments being `fromstr` and `sport`. -/
def origenText (origen : SockaddrIn) : Bytes :=
  inetNtop origen.sinAddr ++ ascii ":" ++ decimal (htons origen.sinPort).toNat

/-- `estándar`, in UTF-8 as the source has it. -/
def estandar : Bytes := ascii "est" ++ [195, 161] ++ ascii "ndar"

/-- What the terminal shows for a line. -/
def shown : Line → Bytes
  | .suscripcionOk origen partido =>
      ascii "\n[subscriber] Suscripcion OK desde " ++ origenText origen ++
        ascii " -> partido \"" ++ partido ++ ascii "\"\n"
  | .newsSinSeparador origen buf =>
      ascii "\n[subscriber] [" ++ origenText origen ++ ascii "] " ++ buf
  | .noticiaEnVivo partido origen texto =>
      ascii "\n---------- NOTICIA EN VIVO ----------\n" ++
        ascii "  Partido: " ++ partido ++ ascii "\n" ++
        ascii "  Origen:  " ++ origenText origen ++ ascii "\n" ++
        ascii "  Texto:   " ++ texto ++
        ascii "---------------------------------------\n"
  | .datagramaNoEstandar origen buf =>
      ascii "\n[subscriber] [" ++ origenText origen ++ ascii "] (datagrama no " ++ estandar ++
        ascii ") " ++ buf

/-- The calls of the system and the libraries. `sendto` gives the result of the k-th
call, `none` for -1. -/
structure Host where
  socket : Bool
  inetPton : Bytes → Option UInt32
  sendto : Nat → Option Nat

/-- What the program does before the receive loop prints a line, and the errors. -/
inductive Suceso where
  | argumentos (rechazo : Arguments.Rechazo)
  | socketFallo
  | direccionInvalida (brokerIp : Bytes)
  | tema (rechazo : Rechazo)
  | sendto (datagram : Bytes) (dest : SockaddrIn)
  | sendtoFallo
  | registrado (topic : Bytes) (n : Nat)
  | suscripcionesEnviadas
  | recvfromFallo
  deriving DecidableEq, Repr

/-- `τ` is the type of what the receive loop prints. -/
abbrev Salida (τ : Type) := Suceso ⊕ τ

/-- `send_sub`, with the value it returns. -/
def sendSubCalls (n : Option Nat) (broker : SockaddrIn) (topic : Bytes) : List Suceso × Int :=
  match sendSub topic with
  | .error rechazo => ([.tema rechazo], -1)
  | .ok datagram =>
      match n with
      | none => ([.sendto datagram broker, .sendtoFallo], -1)
      | some n => ([.sendto datagram broker, .registrado topic n], 0)

/-- The loop over `argv[3 ..]` and what follows it; `k` counts the calls of `sendto`. The
flag says whether the receive loop is reached. -/
def subscribeAll (host : Host) (broker : SockaddrIn) : Nat → List CString → List Suceso × Bool
  | _, [] => ([.suscripcionesEnviadas], true)
  | k, topic :: rest =>
      match checkArgv topic.bytes with
      | .error rechazo => ([.tema rechazo], false)
      | .ok () =>
          let (calls, result) := sendSubCalls (host.sendto k) broker topic.bytes
          if result ≠ 0 then (calls, false)
          else
            let (later, reached) := subscribeAll host broker (k + 1) rest
            (calls ++ later, reached)

/-- One pass of the receive loop; `none` is a `recvfrom` that fails. -/
def receive (broker : SockaddrIn) : Machine Buffer (Option (SockaddrIn × Bytes)) (Salida Line)
  | buf, none => (buf, [.inl .recvfromFallo])
  | buf, some arrival =>
      let (buf, lines) := subscriber broker buf arrival
      (buf, lines.map .inr)

/-- `main` from the call of `socket` on, for the results of `recvfrom` so far. -/
def fromSocket (host : Host) (brokerIp : CString) (port : UInt16) (topics : List CString)
    (buf : Buffer) (received : List (Option (SockaddrIn × Bytes))) : List (Salida Line) :=
  if !host.socket then [.inl .socketFallo]
  else
    match host.inetPton brokerIp.bytes with
    | none => [.inl (.direccionInvalida brokerIp.bytes)]
    | some sinAddr =>
        let broker : SockaddrIn := ⟨afInet, sinAddr, htons port⟩
        let (calls, reached) := subscribeAll host broker 0 topics
        if reached then calls.map .inl ++ outputsFrom (receive broker) buf received
        else calls.map .inl

/-- `main`. -/
def main (host : Host) (args : List CString) (buf : Buffer)
    (received : List (Option (SockaddrIn × Bytes))) : List (Salida Line) :=
  match subscriberArguments args with
  | .error rechazo => [.inl (.argumentos rechazo)]
  | .ok a => fromSocket host a.brokerIp a.port a.topics buf received

theorem toNat_htons (port : UInt16) :
    (htons port).toNat = port.toNat % 256 * 256 + port.toNat / 256 := by
  have bound := port.toNat_lt
  have high : port.toNat / 256 < 256 := by omega
  have byte : ∀ n : Nat, n < 256 → (UInt8.ofNat n).toNat = n := by
    intro n small
    rw [UInt8.toNat_ofNat', Nat.mod_eq_of_lt small]
  simp only [htons, leBytes, List.reverse_cons, List.reverse_nil, List.nil_append,
    List.cons_append, leNat, Nat.mod_eq_of_lt high, byte _ high,
    byte _ (Nat.mod_lt _ (by decide : 256 > 0)), UInt16.toNat_ofNat']
  rw [Nat.mod_eq_of_lt (by omega)]
  omega

/-- The buffer of `INET_ADDRSTRLEN` bytes is large enough. -/
theorem length_inetNtop (addr : UInt32) : (inetNtop addr).length ≤ 15 := by
  have byte : ∀ b : UInt8, (decimal b.toNat).length ≤ 3 := fun b =>
    length_decimal_le b.toNat 3 (by decide) (Nat.lt_trans b.toNat_lt (by decide))
  unfold inetNtop
  split
  · next a b c d _ =>
    have all := And.intro (byte a) (And.intro (byte b) (And.intro (byte c) (byte d)))
    have dot : (ascii ".").length = 1 := rfl
    simp only [List.length_append, dot]
    omega
  · exact Nat.zero_le 15

theorem inetNtop_nul_free (addr : UInt32) : 0 ∉ inetNtop addr := by
  have dot : 0 ∉ ascii "." := by decide
  unfold inetNtop
  split
  · simp only [List.mem_append, decimal_nul_free, dot, or_self, not_false_iff]
  · exact List.not_mem_nil

example : inetNtop 0x0100007F = ascii "127.0.0.1" ∧ htons 9000 = 0x2823 := by decide

end SportsPubSub.Udp.SubscriberMain
