import SportsPubSub.Lib.Reactive
import SportsPubSub.Udp.Protocol

/-!
# The UDP subscriber

Source: udp_C/subscriber_udp.c, the topic arguments with `send_sub`, the receive
loop of `main` and the functions it calls. One input of the loop is the result of
one successful `recvfrom`, a datagram with its source. `buf` is a slot on the stack
that is not cleared between iterations. The outputs are the messages on stdout, one
constructor for each of them, with the values they show; `fromstr` and `sport` stand
for the source they are taken from.
-/
namespace SportsPubSub.Udp.Subscriber
open Lib.Posix Lib.Reactive Protocol

/-- The lines of stderr about a topic argument. -/
inductive Rechazo where
  | temaConEspacios (topic : Bytes)
  | temaDemasiadoLargo (topic : Bytes)
  | subDemasiadoLargo
  deriving DecidableEq, Repr

/-- The checks of `main` on one of `argv[3 ..]`. -/
def checkArgv (topic : Bytes) : Except Rechazo Unit :=
  if (strchr topic charSpace).isSome then .error (.temaConEspacios topic)
  else if topic.length > pubsubUdpMaxTopicLen then .error (.temaDemasiadoLargo topic)
  else .ok ()

/-- `SUB <tema>\n`. -/
def subText (topic : Bytes) : Bytes := pubsubUdpPrefixSub ++ topic ++ [charLf]

/-- `send_sub`: the datagram passed to `sendto`. -/
def sendSub (topic : Bytes) : Except Rechazo Bytes :=
  let (buf, w) := snprintf (pubsubUdpMaxMsg + 1) (subText topic)
  if w ≥ pubsubUdpMaxMsg + 1 then .error .subDemasiadoLargo else .ok buf

theorem length_subText (topic : Bytes) : (subText topic).length = topic.length + 5 := by
  simp only [subText, List.length_append, length_pubsubUdpPrefixSub, List.length_singleton]
  omega

/-- An accepted topic is always sent. -/
theorem sendSub_accepted (topic : Bytes) (h : checkArgv topic = .ok ()) :
    sendSub topic = .ok (subText topic) := by
  have short : topic.length ≤ pubsubUdpMaxTopicLen := by
    unfold checkArgv at h
    split at h
    · cases h
    · split at h
      · cases h
      · next short => exact Nat.not_lt.mp short
  have fits : (subText topic).length < pubsubUdpMaxMsg + 1 := by
    rw [length_subText]
    simp only [pubsubUdpMaxTopicLen, pubsubUdpMaxMsg] at short ⊢
    omega
  rw [sendSub, snprintf_fits _ _ fits]
  exact if_neg (Nat.not_le.mpr fits)

inductive Line where
  | suscripcionOk (origen : SockaddrIn) (partido : Bytes)
  | newsSinSeparador (origen : SockaddrIn) (buf : Bytes)
  | noticiaEnVivo (partido : Bytes) (origen : SockaddrIn) (texto : Bytes)
  | datagramaNoEstandar (origen : SockaddrIn) (buf : Bytes)
  deriving DecidableEq, Repr

/-- `char buf[PUBSUB_UDP_MAX_MSG + 1]`. -/
structure Buffer where
  bytes : Bytes
  size_eq : bytes.length = pubsubUdpMaxMsg + 1
  deriving DecidableEq, Repr

def zeroBuffer : Buffer := ⟨List.replicate (pubsubUdpMaxMsg + 1) 0, List.length_replicate⟩

/-- `recvfrom(sock, buf, PUBSUB_UDP_MAX_MSG, ...)` and `buf[n] = '\0'`. -/
def Buffer.receive (b : Buffer) (datagram : Bytes) : Buffer :=
  let read := datagram.take pubsubUdpMaxMsg
  ⟨read ++ 0 :: b.bytes.drop (read.length + 1), by
    have short : read.length ≤ pubsubUdpMaxMsg := by
      rw [List.length_take]
      exact Nat.min_le_left _ _
    simp only [List.length_append, List.length_cons, List.length_drop, b.size_eq]
    omega⟩

/-- `udp_from_broker`: same family and port, any address. -/
def udpFromBroker (origin broker : SockaddrIn) : Bool :=
  origin.sinFamily == afInet && broker.sinFamily == afInet && origin.sinPort == broker.sinPort

/-- `print_sub_ok_line`. -/
def printSubOkLine (buf : Bytes) (origin : SockaddrIn) : List Line :=
  if !strncmpEq buf pubsubUdpPrefixSubOk pubsubUdpPrefixSubOk.length then []
  else
    let rest := buf.drop pubsubUdpPrefixSubOk.length
    let k := strcspn rest isCrlf
    [.suscripcionOk origin (rest.take k)]

/-- The size of `topic_disp`. -/
def topicDispSize : Nat := 64

/-- What is printed after `Texto:`: the body, and a newline unless the body is
empty or has one somewhere. -/
def shownBody (body : Bytes) : Bytes :=
  if body ≠ [] ∧ strchr body charLf = none then body ++ [charLf] else body

/-- `print_news_line`. -/
def printNewsLine (buf : Bytes) (origin : SockaddrIn) : List Line :=
  if !strncmpEq buf pubsubUdpPrefixNews pubsubUdpPrefixNews.length then []
  else
    let p := buf.drop pubsubUdpPrefixNews.length
    match strchr p charBar with
    | none => [.newsSinSeparador origin buf]
    | some pipe =>
        let tlen := if pipe ≥ topicDispSize then topicDispSize - 1 else pipe
        [.noticiaEnVivo (p.take tlen) origin (shownBody (p.drop (pipe + 1)))]

/-- The branches of the receive loop on the text in `buf`. -/
def dispatch (buf : Bytes) (origin : SockaddrIn) : List Line :=
  if strncmpEq buf pubsubUdpPrefixSubOk pubsubUdpPrefixSubOk.length then printSubOkLine buf origin
  else if strncmpEq buf pubsubUdpPrefixNews pubsubUdpPrefixNews.length then
    printNewsLine buf origin
  else [.datagramaNoEstandar origin buf]

def subscriber (broker : SockaddrIn) : Machine Buffer (SockaddrIn × Bytes) Line :=
  fun buf arrival =>
    let buf := buf.receive arrival.2
    (buf, if !udpFromBroker arrival.1 broker then [] else dispatch (text buf.bytes) arrival.1)

theorem receive_bytes (b : Buffer) (datagram : Bytes) (fits : datagram.length ≤ pubsubUdpMaxMsg) :
    (b.receive datagram).bytes = datagram ++ 0 :: b.bytes.drop (datagram.length + 1) := by
  simp only [Buffer.receive, List.take_of_length_le fits]

/-- The string in the buffer is that of the datagram: the NUL ends it before
anything that an earlier datagram left behind. -/
theorem text_receive (b : Buffer) (datagram : Bytes) (fits : datagram.length ≤ pubsubUdpMaxMsg) :
    text (b.receive datagram).bytes = text datagram := by
  rw [receive_bytes b datagram fits, text_append_nul_cons]

/-- What one accepted datagram makes the subscriber print. -/
theorem subscriber_lines (broker origin : SockaddrIn) (buf : Buffer) (datagram : Bytes)
    (fits : datagram.length ≤ pubsubUdpMaxMsg) (accepted : udpFromBroker origin broker = true) :
    (subscriber broker buf (origin, datagram)).2 = dispatch (text datagram) origin := by
  simp only [subscriber, accepted, Bool.not_true, Bool.false_eq_true, if_false]
  rw [text_receive buf datagram fits]

/-- A confirmation shows the topic up to its line end. -/
theorem dispatch_subOk (rest : Bytes) (origin : SockaddrIn) :
    dispatch (pubsubUdpPrefixSubOk ++ rest) origin =
      [.suscripcionOk origin (rest.take (strcspn rest isCrlf))] := by
  have hit : strncmpEq (pubsubUdpPrefixSubOk ++ rest) pubsubUdpPrefixSubOk
      pubsubUdpPrefixSubOk.length = true := by
    rw [strncmpEq_length]
    exact List.take_left
  simp only [dispatch, printSubOkLine, hit, if_true, Bool.not_true, Bool.false_eq_true, if_false]
  rw [List.drop_left]

theorem shownBody_of_newline (body : Bytes) : shownBody (body ++ [charLf]) = body ++ [charLf] := by
  have newline : strchr (body ++ [charLf]) charLf ≠ none := by
    rw [ne_eq, strchr_none_iff]
    simp
  exact if_neg fun h => newline h.2

/-- A NEWS text is shown as it was put together, when its topic has no separator
and fits `topic_disp`. -/
theorem dispatch_newsText (topic body : Bytes) (origin : SockaddrIn) (bar : charBar ∉ topic)
    (short : topic.length < topicDispSize) :
    dispatch (newsText topic body) origin = [.noticiaEnVivo topic origin (body ++ [charLf])] := by
  have shape : newsText topic body =
      pubsubUdpPrefixNews ++ (topic ++ charBar :: (body ++ [charLf])) := by
    simp [newsText]
  have notOk : strncmpEq (newsText topic body) pubsubUdpPrefixSubOk pubsubUdpPrefixSubOk.length =
      false := by
    rw [Bool.eq_false_iff, ne_eq, strncmpEq_length, shape]
    intro same
    have first := congrArg List.head? same
    simp [pubsubUdpPrefixSubOk, pubsubUdpPrefixNews, ascii] at first
  have hit : strncmpEq (newsText topic body) pubsubUdpPrefixNews pubsubUdpPrefixNews.length =
      true := by
    rw [strncmpEq_length, shape]
    exact List.take_left
  have sep := strchr_append topic (body ++ [charLf]) charBar bar
  have rest : (topic ++ charBar :: (body ++ [charLf])).drop (topic.length + 1) =
      body ++ [charLf] := by
    rw [← List.drop_drop, List.drop_left]
    rfl
  simp only [dispatch, notOk, printNewsLine, hit, if_true, Bool.not_true, Bool.false_eq_true,
    if_false]
  rw [shape, List.drop_left, sep]
  simp only [Nat.not_le.mpr short, if_false, List.take_left, rest]
  rw [shownBody_of_newline]

end SportsPubSub.Udp.Subscriber
