import SportsPubSub.Udp.Provenance

/-!
# The programs add no duplicates

UDP may deliver a datagram twice. Neither broker nor subscriber repeats a story on
its own: when every datagram is delivered at most once, a story is displayed at most
as often as it was sent. Counted along the way of a datagram: displayed lines at
different positions, NEWS for one address, handled publications, sent publications.
-/
namespace SportsPubSub.Udp.Duplicates
open Lib.Posix Lib.Reactive Lib.DatagramNet Lib.BoundedMultimap
open Protocol Broker Routing Subscription Publisher Subscriber Publication Registry TopicNames
open Composed Provenance

variable {ι κ : Type}

/-- Where the broker read the datagrams that it handled. -/
def handledAt (trace : List (Event ι κ)) : List Nat :=
  trace.filterMap fun
    | .handled pos _ _ => some pos
    | _ => none

/-- Where it read copies of one datagram. -/
def copiesAt (datagram : Bytes) (trace : List (Event ι κ)) : List Nat :=
  trace.filterMap fun
    | .handled pos _ d => if d = datagram then some pos else none
    | _ => none

/-- How often a datagram was sent by a publisher. -/
def timesPublished (datagram : Bytes) (trace : List (Event ι κ)) : Nat :=
  trace.countP fun
    | .published _ d => d = datagram
    | _ => false

/-- The NEWS of one text for one address. -/
def isNews (a : SockaddrIn) (news : Bytes) (g : Datagram SockaddrIn Bytes) : Bool :=
  g.dst = a && g.body = news

/-- The line is the story. -/
def isStory (partido cuerpo : Bytes) : Line → Bool
  | .noticiaEnVivo p _ texto => p = partido && texto = cuerpo ++ [charLf]
  | _ => false

section Reads
variable [DecidableEq κ]

/-- Where subscriber `k` read the datagrams that it displayed. -/
def readsOf (k : κ) (trace : List (Event ι κ)) : List Nat :=
  trace.filterMap fun
    | .displayed k' pos _ => if k' = k then some pos else none
    | _ => none

/-- Where it read the stories with this topic and body. -/
def storiesAt (k : κ) (partido cuerpo : Bytes) (trace : List (Event ι κ)) : List Nat :=
  trace.filterMap fun
    | .displayed k' pos line => if k' = k ∧ isStory partido cuerpo line then some pos else none
    | _ => none

end Reads

/-- A finer choice from a list without repetitions has none. -/
theorem nodup_finer {α β : Type} (fine coarse : α → Option β) (xs : List α)
    (agree : ∀ x y, fine x = some y → coarse x = some y) (h : (xs.filterMap coarse).Nodup) :
    (xs.filterMap fine).Nodup := by
  have sub : (xs.filterMap fine).Sublist (xs.filterMap coarse) := by
    induction xs with
    | nil => exact .slnil
    | cons x rest ih =>
      have tail : (rest.filterMap coarse).Nodup := by
        rw [List.filterMap_cons] at h
        split at h
        · exact h
        · exact (List.nodup_cons.mp h).2
      cases chosen : fine x with
      | none =>
        rw [List.filterMap_cons_none chosen, List.filterMap_cons]
        split
        · exact ih tail
        · exact .cons _ (ih tail)
      | some y =>
        rw [List.filterMap_cons_some chosen, List.filterMap_cons_some (agree x y chosen)]
        exact .cons_cons _ (ih tail)
  exact h.sublist sub

theorem newsText_middle (topic body : Bytes) :
    newsText topic body = pubsubUdpPrefixNews ++ (topic ++ [charBar] ++ body ++ [charLf]) := by
  simp [newsText]

theorem pubText_middle (topic body : Bytes) :
    pubText topic body = pubsubUdpPrefixPub ++ (topic ++ [charBar] ++ body ++ [charLf]) := by
  simp [pubText]

/-- NEWS and publication determine each other. -/
theorem pubText_of_newsText (t b t' b' : Bytes) (same : newsText t b = newsText t' b') :
    pubText t b = pubText t' b' := by
  rw [newsText_middle, newsText_middle] at same
  rw [pubText_middle, pubText_middle, List.append_cancel_left same]

theorem subText_ne_pubText (t topic body : Bytes) : subText t ≠ pubText topic body := by
  intro same
  have first := congrArg List.head? same
  simp [subText, pubText, pubsubUdpPrefixSub, pubsubUdpPrefixPub, ascii] at first

/-- One reaction of the broker sends a NEWS text to an address at most once, and only
for a datagram that is the publication of this text. -/
theorem answers_news (D : Deployment ι κ) (trace : List (Event ι κ)) (topics : Topics)
    (table : TableFrom D trace topics) (g : Datagram SockaddrIn Bytes) (net : Nat → Bool)
    (origin : Origin D trace g) (addressed : g.dst = D.brokerAddr) (a : SockaddrIn)
    (partido cuerpo : Bytes) :
    (answers D topics (arrivalOf g net)).countP (isNews a (newsText partido cuerpo)) ≤
      if g.body = pubText partido cuerpo then 1 else 0 := by
  have fewer : (answers D topics (arrivalOf g net)).countP (isNews a (newsText partido cuerpo)) ≤
      (datagramsSent (broker topics (arrivalOf g net)).2).countP
        fun x => x.2 = a && x.1 = newsText partido cuerpo := by
    rw [answers, List.countP_map, ← (broker_reaction topics (arrivalOf g net)).sent.1]
    exact (taken_sublist _).countP_le
  apply fewer.trans
  cases origin with
  | published i body datagram text sent =>
    have own := arrivalOf_noticia _ _ _ text net (D.publisher i).addr D.brokerAddr
    obtain ⟨history, rfl, -⟩ := table
    rw [datagramsSent_noticia history (D.publisher i) _ body datagram text own, List.countP_map]
    by_cases same : newsText (D.publisher i).topic body = newsText partido cuerpo
    · have publication := pubText_of_newsText _ _ _ _ same
      rw [if_pos (text.whole.trans publication)]
      have once : ((bucket (runFrom broker [] history) (D.publisher i).topic).countP
          fun dest => dest = a) ≤ 1 := by
        have unique := ((onlyAppended [] history).2 (D.publisher i).topic).2
        exact List.nodup_iff_count_le_one.mp unique a
      simpa [Function.comp_def, same] using once
    · have none : (bucket (runFrom broker [] history) (D.publisher i).topic).countP
          ((fun x : Bytes × SockaddrIn => x.2 = a && x.1 = newsText partido cuerpo) ∘
            fun dest => (newsText (D.publisher i).topic body, dest)) = 0 := by
        rw [List.countP_eq_zero]
        intro dest _
        simp [same]
      rw [none]
      exact Nat.zero_le _
  | asked k t own sent =>
    have whole := arrivalOf_subText D k t own net (D.subscriber k).addr D.brokerAddr
    have free := (D.subscriber k).arguments t own
    rw [if_neg (subText_ne_pubText t partido cuerpo), Nat.le_zero, List.countP_eq_zero]
    intro x mem
    rw [datagramsSent_subText topics _ t free whole x mem]
    simp [subOkText_ne_newsText]
  | confirmed k t own sent => exact absurd addressed (D.elsewhere k)
  | forwarded i body datagram a' text sent wanted =>
    obtain ⟨k, t, -, rfl, -⟩ := wanted
    exact absurd addressed (D.elsewhere k)

/-- A displayed story was read from its NEWS. -/
theorem story_news (D : Deployment ι κ) (trace : List (Event ι κ)) (k : κ) (buf : Buffer)
    (g : Datagram SockaddrIn Bytes) (origin : Origin D trace g)
    (addressed : g.dst = (D.subscriber k).addr) (partido cuerpo : Bytes) (line : Line)
    (printed : line ∈ (subscriber D.brokerAddr buf (g.src, g.body)).2)
    (story : isStory partido cuerpo line = true) : g.body = newsText partido cuerpo := by
  rcases origin_printed D trace k buf g origin addressed line printed with
    ⟨topic, -, rfl⟩ | ⟨topic, body, same, -, rfl⟩
  · simp [isStory] at story
  · simp only [isStory, Bool.and_eq_true, decide_eq_true_eq, List.append_cancel_right_eq] at story
    obtain ⟨rfl, rfl⟩ := story
    exact same

theorem copiesAt_displayed (datagram : Bytes) (trace : List (Event ι κ)) (k : κ) (pos : Nat)
    (lines : List Line) :
    copiesAt datagram (trace ++ lines.map (.displayed k pos)) = copiesAt datagram trace := by
  simp [copiesAt, List.filterMap_map]

theorem timesPublished_displayed (datagram : Bytes) (trace : List (Event ι κ)) (k : κ)
    (pos : Nat) (lines : List Line) :
    timesPublished datagram (trace ++ lines.map (.displayed k pos)) =
      timesPublished datagram trace := by
  simp [timesPublished, List.countP_append, List.countP_map, Function.comp_def]

/-- The counts along the way of one story to one subscriber. -/
structure Counted (D : Deployment ι κ) [DecidableEq κ] (k : κ) (partido cuerpo : Bytes)
    (trace : List (Event ι κ)) (s : State ι κ) : Prop where
  stories : ∀ pos ∈ storiesAt k partido cuerpo trace, ∃ g, s.net[pos]? = some g ∧
    isNews (D.subscriber k).addr (newsText partido cuerpo) g = true
  news : s.net.countP (isNews (D.subscriber k).addr (newsText partido cuerpo)) ≤
    (copiesAt (pubText partido cuerpo) trace).length
  copies : ∀ pos ∈ copiesAt (pubText partido cuerpo) trace, ∃ g, s.net[pos]? = some g ∧
    isNews D.brokerAddr (pubText partido cuerpo) g = true
  sent : s.net.countP (isNews D.brokerAddr (pubText partido cuerpo)) ≤
    timesPublished (pubText partido cuerpo) trace

/-- What was read stays readable while the network grows. -/
theorem still_there {net more : Net SockaddrIn Bytes} {test : Datagram SockaddrIn Bytes → Bool}
    {reads : List Nat} (h : ∀ pos ∈ reads, ∃ g, net[pos]? = some g ∧ test g = true) :
    ∀ pos ∈ reads, ∃ g, (net ++ more)[pos]? = some g ∧ test g = true := by
  intro pos mem
  obtain ⟨g, found, met⟩ := h pos mem
  exact ⟨g, getElem?_grows net more pos g found, met⟩

variable [DecidableEq ι] [DecidableEq κ]

theorem counted_moves (D : Deployment ι κ) (k : κ) (partido cuerpo : Bytes)
    (trace : List (Event ι κ)) (s next : State ι κ) (events : List (Event ι κ))
    (inv : Inv D trace s) (counted : Counted D k partido cuerpo trace s)
    (moves : Moves D s next events) : Counted D k partido cuerpo (trace ++ events) next := by
  obtain ⟨stories, news, copies, sent⟩ := counted
  have elsewhere := D.elsewhere k
  cases moves with
  | published i datagram own =>
    constructor
    · simpa [storiesAt] using still_there stories
    · have apart : isNews (D.subscriber k).addr (newsText partido cuerpo)
          ⟨(D.publisher i).addr, D.brokerAddr, datagram⟩ = false := by
        simp [isNews, elsewhere.symm]
      simpa [copiesAt, List.countP_append, apart] using news
    · simpa [copiesAt] using still_there copies
    · by_cases same : datagram = pubText partido cuerpo
      · simpa [timesPublished, List.countP_append, isNews, same] using sent
      · simpa [timesPublished, List.countP_append, isNews, same] using sent
  | asked k' t own =>
    constructor
    · simpa [storiesAt] using still_there stories
    · have apart : isNews (D.subscriber k).addr (newsText partido cuerpo)
          ⟨(D.subscriber k').addr, D.brokerAddr, subText t⟩ = false := by
        simp [isNews, elsewhere.symm]
      simpa [copiesAt, List.countP_append, apart] using news
    · simpa [copiesAt] using still_there copies
    · simpa [timesPublished, List.countP_append, isNews, subText_ne_pubText] using sent
  | handled pos net g found addressed =>
    have origin := inv.net g (List.mem_of_getElem? found)
    have reaction := answers_news D trace s.topics inv.table g net origin addressed
      (D.subscriber k).addr partido cuerpo
    constructor
    · simpa [storiesAt] using still_there stories
    · by_cases same : g.body = pubText partido cuerpo
      · rw [if_pos same] at reaction
        simp only [copiesAt, List.filterMap_append, List.length_append, List.countP_append,
          List.filterMap_cons, List.filterMap_nil, same, if_true, List.length_singleton] at news ⊢
        omega
      · rw [if_neg same] at reaction
        simp only [copiesAt, List.filterMap_append, List.length_append, List.countP_append,
          List.filterMap_cons, List.filterMap_nil, same, if_false, List.length_nil] at news ⊢
        omega
    · intro pos' mem
      simp only [copiesAt, List.filterMap_append, List.mem_append] at mem
      rcases mem with old | new
      · exact still_there copies pos' old
      · by_cases same : g.body = pubText partido cuerpo
        · simp only [List.filterMap_cons, List.filterMap_nil, same, if_true,
            List.mem_singleton] at new
          subst new
          exact ⟨g, getElem?_grows _ _ _ _ found, by simp [isNews, addressed, same]⟩
        · simp [same] at new
    · have none : (answers D s.topics (arrivalOf g net)).countP
          (isNews D.brokerAddr (pubText partido cuerpo)) = 0 := by
        rw [List.countP_eq_zero]
        intro x mem
        have outside :=
          ((handled_origin D trace s.topics inv.table g net origin addressed).2 x mem).2
        simp [isNews, outside]
      simpa [timesPublished, List.countP_append, none] using sent
  | displayed k' pos g found addressed =>
    have origin := inv.net g (List.mem_of_getElem? found)
    constructor
    · intro pos' mem
      simp only [storiesAt, List.filterMap_append, List.mem_append] at mem
      rcases mem with old | new
      · exact stories pos' old
      · obtain ⟨e, he, chosen⟩ := List.mem_filterMap.mp new
        obtain ⟨line, printed, rfl⟩ := List.mem_map.mp he
        simp only [Option.ite_none_right_eq_some, Option.some.injEq] at chosen
        obtain ⟨⟨rfl, story⟩, rfl⟩ := chosen
        have body := story_news D trace k' _ g origin addressed partido cuerpo line printed story
        exact ⟨g, found, by simp [isNews, addressed, body]⟩
    · rw [copiesAt_displayed]
      exact news
    · rw [copiesAt_displayed]
      exact copies
    · rw [timesPublished_displayed]
      exact sent

/-- No story is displayed more often than it was sent, when no datagram is delivered
twice: neither to the broker nor to the subscriber. -/
theorem stories_not_repeated (D : Deployment ι κ) (final : State ι κ)
    (trace : List (Event ι κ)) (run : Run D final trace) (k : κ) (partido cuerpo : Bytes)
    (once : (readsOf k trace).Nodup) (once' : (handledAt trace).Nodup) :
    (storiesAt k partido cuerpo trace).length ≤
      timesPublished (pubText partido cuerpo) trace := by
  have both := run_invariant D
    (fun trace s => Inv D trace s ∧ Counted D k partido cuerpo trace s)
    (fun junk => ⟨inv_start D junk, fun _ mem => absurd mem List.not_mem_nil, Nat.le_refl 0,
      fun _ mem => absurd mem List.not_mem_nil, Nat.le_refl 0⟩)
    (fun trace s next events inv moves => ⟨inv_moves D trace s next events inv.1 moves,
      counted_moves D k partido cuerpo trace s next events inv.1 inv.2 moves⟩)
    final trace run
  obtain ⟨-, stories, news, copies, sent⟩ := both
  have different : (storiesAt k partido cuerpo trace).Nodup := by
    apply nodup_finer _ _ trace ?_ once
    intro e pos chosen
    cases e with
    | displayed k' pos' line =>
      simp only [Option.ite_none_right_eq_some] at chosen ⊢
      exact ⟨chosen.1.1, chosen.2⟩
    | published i d => cases chosen
    | asked k' t => cases chosen
    | handled pos' src d => cases chosen
  have different' : (copiesAt (pubText partido cuerpo) trace).Nodup := by
    apply nodup_finer _ _ trace ?_ once'
    intro e pos chosen
    cases e with
    | handled pos' src d =>
      simp only [Option.ite_none_right_eq_some] at chosen
      exact chosen.2
    | published i d => cases chosen
    | asked k' t => cases chosen
    | displayed k' pos' line => cases chosen
  calc (storiesAt k partido cuerpo trace).length
      ≤ final.net.countP (isNews (D.subscriber k).addr (newsText partido cuerpo)) :=
        reads_le_count _ _ _ different stories
    _ ≤ (copiesAt (pubText partido cuerpo) trace).length := news
    _ ≤ final.net.countP (isNews D.brokerAddr (pubText partido cuerpo)) :=
        reads_le_count _ _ _ different' copies
    _ ≤ timesPublished (pubText partido cuerpo) trace := sent

theorem stories_not_repeated_story :
    (storiesAt () (ascii "A")
      (ascii "[#1/1] Inicia el partido: A contra Rival. Saque inicial para A.")
      storyTrace).length ≤
      timesPublished (pubText (ascii "A")
        (ascii "[#1/1] Inicia el partido: A contra Rival. Saque inicial para A.")) storyTrace := by
  obtain ⟨final, run⟩ := story_run
  exact stories_not_repeated pair final storyTrace run () _ _ (by decide +kernel)
    (by decide +kernel)

end SportsPubSub.Udp.Duplicates
