import SportsPubSub.Lib.Posix

/-!
# Text protocol of the UDP system

Constants of udp_C/pubsub_udp.h, shared by broker, publisher and subscriber, and
the texts that its header comment defines. `PubText` and `subTopic` are the
independent reading of a datagram used by specifications; the broker's own
parsing is in `Udp.Broker`.
-/
namespace SportsPubSub.Udp.Protocol
open Lib.Posix

def pubsubUdpDefaultPort : UInt16 := 9000
def pubsubUdpMaxMsg : Nat := 1400
def pubsubUdpMaxTopicLen : Nat := 63
def pubsubUdpMaxSubsPerTopic : Nat := 128
def pubsubUdpMaxTopics : Nat := 64

def pubsubUdpPrefixSub : Bytes := ascii "SUB "
def pubsubUdpPrefixPub : Bytes := ascii "PUB "
def pubsubUdpPrefixSubOk : Bytes := ascii "OK SUB "
def pubsubUdpPrefixNews : Bytes := ascii "NEWS "

def charLf : UInt8 := 10
def charCr : UInt8 := 13
def charSpace : UInt8 := 32
def charBar : UInt8 := 124

def isCrlf (c : UInt8) : Bool := c == charLf || c == charCr

/-- `OK SUB <tema>\n`. -/
def subOkText (topic : Bytes) : Bytes := pubsubUdpPrefixSubOk ++ topic ++ [charLf]

/-- `NEWS <tema>|<cuerpo>\n`. -/
def newsText (topic body : Bytes) : Bytes :=
  pubsubUdpPrefixNews ++ topic ++ [charBar] ++ body ++ [charLf]

@[simp] theorem length_pubsubUdpPrefixSub : pubsubUdpPrefixSub.length = 4 := by decide
@[simp] theorem length_pubsubUdpPrefixPub : pubsubUdpPrefixPub.length = 4 := by decide
@[simp] theorem length_pubsubUdpPrefixSubOk : pubsubUdpPrefixSubOk.length = 7 := by decide
@[simp] theorem length_pubsubUdpPrefixNews : pubsubUdpPrefixNews.length = 5 := by decide

theorem length_subOkText (topic : Bytes) : (subOkText topic).length = topic.length + 8 := by
  simp only [subOkText, List.length_append, length_pubsubUdpPrefixSubOk, List.length_singleton]
  omega

theorem length_newsText (topic body : Bytes) :
    (newsText topic body).length = topic.length + body.length + 7 := by
  simp only [newsText, List.length_append, length_pubsubUdpPrefixNews, List.length_singleton]
  omega

theorem subOkText_injective (t t' : Bytes) (h : subOkText t = subOkText t') : t = t' := by
  simp only [subOkText, List.append_assoc] at h
  exact List.append_cancel_right (List.append_cancel_left h)

/-- The two kinds of answer are told apart by their first byte. -/
theorem subOkText_ne_newsText (t topic body : Bytes) : subOkText t ≠ newsText topic body := by
  intro h
  have first := congrArg List.head? h
  simp [subOkText, newsText, pubsubUdpPrefixSubOk, pubsubUdpPrefixNews, ascii] at first

/-- The topic of a valid subscription datagram: what follows `SUB ` up to the
first NUL, without trailing CR/LF, if it is one nonempty token of at most 63
bytes. Anything else is no subscription. -/
def subTopic (datagram : Bytes) : Option Bytes :=
  let topic := ((text datagram).drop 4).rdropWhile isCrlf
  if (text datagram).take 4 = pubsubUdpPrefixSub ∧ topic ≠ [] ∧ charSpace ∉ topic ∧
      topic.length ≤ pubsubUdpMaxTopicLen then some topic
  else none

/-- The datagram is `PUB t|b` up to the first NUL and trailing CR/LF; the first
separator ends the topic, which is not empty. -/
def PubText (datagram topic body : Bytes) : Prop :=
  ∃ payload, text datagram = pubsubUdpPrefixPub ++ payload ∧
    payload.rdropWhile isCrlf = topic ++ charBar :: body ∧ charBar ∉ topic ∧ topic ≠ []

/-- Facts a stored topic inherits from the datagram that named it. -/
theorem subTopic_some (datagram topic : Bytes) (h : subTopic datagram = some topic) :
    topic ≠ [] ∧ charSpace ∉ topic ∧ topic.length ≤ pubsubUdpMaxTopicLen := by
  simp only [subTopic, Option.ite_none_right_eq_some, Option.some.injEq] at h
  obtain ⟨⟨-, hne, hsp, hlen⟩, rfl⟩ := h
  exact ⟨hne, hsp, hlen⟩

end SportsPubSub.Udp.Protocol
