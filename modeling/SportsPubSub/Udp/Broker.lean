import SportsPubSub.Lib.Reactive
import SportsPubSub.Udp.Protocol

/-!
# The UDP broker

Source: udp_C/broker_udp.c. `g_topics[0 .. g_n_topics)` is a list of buckets and
`subs[0 .. n_subs)` of a bucket is a list of addresses, so the two counters are
lengths. Every call of `send_datagram`, every `sendto` and every diagnostic line
is an effect; the outcome of each `sendto` is an input. Socket set-up and the
port argument are outside this module.
-/
namespace SportsPubSub.Udp.Broker
open Lib.Posix Lib.Reactive Protocol

structure TopicBucket where
  topic : Bytes
  subs : List SockaddrIn
  deriving DecidableEq, Repr

abbrev Topics := List TopicBucket

/-- The lines written to stdout and stderr: one constructor for each format
string of the source, with the values it prints. -/
inductive Diagnostic where
  | subSinTema
  | temaConEspacios (payload : Bytes)
  | temaDemasiadoLargo (max : Nat)
  | tablaLlena
  | maximoDeExtremos (topic : Bytes)
  | respuestaDemasiadoLarga
  | suscripcionRegistrada (payload : Bytes) (client : SockaddrIn) (extremos : Nat)
  | pubSinSeparador
  | pubTemaVacio
  | pubSinExtremos (topic : Bytes)
  | newsDemasiadoLargo
  | pubReenviado (topic : Bytes) (sent : Nat)
  | mensajeDemasiadoLargo
  | sendtoFallo
  | noReconocido (primeros : Bytes)
  deriving DecidableEq, Repr

inductive Effect where
  | sendDatagram (text : Bytes) (dest : SockaddrIn)
  | sendto (text : Bytes) (dest : SockaddrIn)
  | log (line : Diagnostic)
  deriving DecidableEq, Repr

/-- `strip_trailing_crlf`: the loop runs down from `strlen(s)`. -/
def stripTrailingCrlf (s : Bytes) : Bytes := s.take (scanEnd isCrlf s s.length)

/-- `sockaddr_in_equal` compares family, address and port. -/
def sockaddrInEqual (a b : SockaddrIn) : Bool :=
  a.sinFamily == b.sinFamily && a.sinAddr == b.sinAddr && a.sinPort == b.sinPort

/-- `find_topic_index`; `none` is the source's `-1`. -/
def findTopicIndex (topics : Topics) (topic : Bytes) : Option Nat :=
  topics.findIdx? fun b => strcmpEq b.topic topic

/-- `add_topic_bucket`: `snprintf` cuts the stored name at 63 bytes. -/
def addTopicBucket (topics : Topics) (topic : Bytes) : Topics × Option Nat :=
  if topics.length ≥ pubsubUdpMaxTopics then (topics, none)
  else (topics ++ [⟨(snprintf (pubsubUdpMaxTopicLen + 1) topic).1, []⟩], some topics.length)

/-- `ensure_topic_index`. -/
def ensureTopicIndex (topics : Topics) (topic : Bytes) : Topics × Option Nat :=
  match findTopicIndex topics topic with
  | some idx => (topics, some idx)
  | none => addTopicBucket topics topic

/-- `add_subscriber_to_topic`: the duplicate test comes before the capacity
test, so a known address is accepted silently even in a full bucket. -/
def addSubscriberToTopic (topics : Topics) (topicIdx : Nat) (addr : SockaddrIn) :
    Topics × List Effect :=
  match topics[topicIdx]? with
  | none => (topics, [])
  | some b =>
      if b.subs.any (fun s => sockaddrInEqual s addr) then (topics, [])
      else if b.subs.length ≥ pubsubUdpMaxSubsPerTopic then
        (topics, [.log (.maximoDeExtremos b.topic)])
      else (topics.set topicIdx { b with subs := b.subs ++ [addr] }, [])

/-- `send_datagram`; `ok` is the outcome of its `sendto`. -/
def sendDatagram (ok : Bool) (text : Bytes) (dest : SockaddrIn) : Int × List Effect :=
  if text.length > pubsubUdpMaxMsg then
    (-1, [.sendDatagram text dest, .log .mensajeDemasiadoLargo])
  else if ok then (0, [.sendDatagram text dest, .sendto text dest])
  else (-1, [.sendDatagram text dest, .sendto text dest, .log .sendtoFallo])

/-- `handle_subscribe`: registration and the `OK SUB` answer are separate, so a
full bucket refuses the address and still answers. -/
def handleSubscribe (net : Nat → Bool) (topics : Topics) (payload : Bytes)
    (client : SockaddrIn) : Topics × List Effect :=
  let payload := stripTrailingCrlf payload
  if payload = [] then (topics, [.log .subSinTema])
  else if (strchr payload charSpace).isSome then (topics, [.log (.temaConEspacios payload)])
  else if payload.length > pubsubUdpMaxTopicLen then
    (topics, [.log (.temaDemasiadoLargo pubsubUdpMaxTopicLen)])
  else
    match ensureTopicIndex topics payload with
    | (topics, none) => (topics, [.log .tablaLlena])
    | (topics, some ti) =>
        let (topics, warning) := addSubscriberToTopic topics ti client
        let (subOk, w) := snprintf pubsubUdpMaxMsg (subOkText payload)
        if w ≥ pubsubUdpMaxMsg then (topics, warning ++ [.log .respuestaDemasiadoLarga])
        else
          let extremos := ((topics[ti]?).map fun b => b.subs.length).getD 0
          (topics, warning ++ (sendDatagram (net 0) subOk client).2 ++
            [.log (.suscripcionRegistrada payload client extremos)])

/-- The send loop of `handle_publish`: the number of successes and the effects. -/
def forwardLoop (net : Nat → Bool) (out : Bytes) : Nat → List SockaddrIn → Nat × List Effect
  | _, [] => (0, [])
  | i, dest :: rest =>
      let (r, effects) := sendDatagram (net i) out dest
      let (sent, later) := forwardLoop net out (i + 1) rest
      ((if r = 0 then sent + 1 else sent), effects ++ later)

/-- `handle_publish`: the table is only read. -/
def handlePublish (net : Nat → Bool) (topics : Topics) (payload : Bytes) : List Effect :=
  let payload := stripTrailingCrlf payload
  match strchr payload charBar with
  | none => [.log .pubSinSeparador]
  | some sep =>
      let topic := payload.take sep
      let body := payload.drop (sep + 1)
      if topic = [] then [.log .pubTemaVacio]
      else
        match findTopicIndex topics topic with
        | none => [.log (.pubSinExtremos topic)]
        | some ti =>
            let (out, w) := snprintf pubsubUdpMaxMsg (newsText topic body)
            if w ≥ pubsubUdpMaxMsg then [.log .newsDemasiadoLargo]
            else
              let subs := ((topics[ti]?).map fun b => b.subs).getD []
              let (sent, effects) := forwardLoop net out 0 subs
              effects ++ [.log (.pubReenviado topic sent)]

/-- What one successful `recvfrom` yields: at most `PUBSUB_UDP_MAX_MSG` bytes and
their source. `net i` is the outcome of the i-th `sendto` of the reaction. -/
structure Arrival where
  client : SockaddrIn
  datagram : Bytes
  fits : datagram.length ≤ pubsubUdpMaxMsg
  net : Nat → Bool

/-- One pass of the loop of `main` after `recvfrom`: the NUL stored at `buf[n]`
makes the text end with the datagram, and an empty datagram is skipped. -/
def broker : Machine Topics Arrival Effect := fun topics arrival =>
  if arrival.datagram = [] then (topics, [])
  else
    let buf := text arrival.datagram
    if strncmpEq buf pubsubUdpPrefixSub pubsubUdpPrefixSub.length then
      handleSubscribe arrival.net topics (buf.drop pubsubUdpPrefixSub.length) arrival.client
    else if strncmpEq buf pubsubUdpPrefixPub pubsubUdpPrefixPub.length then
      (topics, handlePublish arrival.net topics (buf.drop pubsubUdpPrefixPub.length))
    else (topics, [.log (.noReconocido (buf.take 40))])

/-- The texts handed to `send_datagram`, with their destinations, in order. -/
def datagramsSent (effects : List Effect) : List (Bytes × SockaddrIn) :=
  effects.filterMap fun e => match e with
    | .sendDatagram text dest => some (text, dest)
    | _ => none

end SportsPubSub.Udp.Broker
