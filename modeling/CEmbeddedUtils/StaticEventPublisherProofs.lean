import CEmbeddedUtils.ErrorCodes
import CEmbeddedUtils.MemoryProofs
import CEmbeddedUtils.SizeTProofs
import CEmbeddedUtils.TransducerProofs

/-! # The event publisher — who is called, and how often

    `static_event_publisher.c` calls the callbacks of its subscribers one after
    the other.  A callback is code of the application: while it runs it may
    notify the publisher again, take it down, or set it up anew; and the loop
    that has called it reads the configuration afresh before the next call.

    So the publisher is embedded as a machine whose moves are those of the
    application, the return of a callback among them.  The notifications under
    way form a stack, the innermost first: the application is in the callback
    of the innermost one, or in no callback if there is none.  Between two
    moves runs one round of one loop. -/

namespace CembStaticEventPublisher

open Memory Transducer

variable {w : Nat} {κ φ δ : Type}

/-- `StaticEventPublisherEntry`; a callback is its function pointer. -/
structure StaticEventPublisherEntry (κ φ : Type) where
  context : κ
  callback : φ

/-- `StaticEventPublisherConfig`. -/
structure StaticEventPublisherConfig (w : Nat) (κ φ : Type) where
  subscribers : Block (StaticEventPublisherEntry κ φ)
  subscriberCount : SizeT w

/-- `StaticEventPublisher`. -/
structure StaticEventPublisher (w : Nat) (κ φ : Type) where
  config : StaticEventPublisherConfig w κ φ

/-! ## The source -/

def staticEventPublisherValidateConfig (config : StaticEventPublisherConfig w κ φ) : ErrorCode :=
  if config.subscriberCount = 0 then .errInvalidArg else .errNone

def staticEventPublisherInit (pub : StaticEventPublisher w κ φ)
    (config : StaticEventPublisherConfig w κ φ) : ErrorCode × StaticEventPublisher w κ φ :=
  match staticEventPublisherValidateConfig config with
  | .errNone => (.errNone, { config := config })
  | ret => (ret, pub)

def staticEventPublisherDeinit (pub : StaticEventPublisher w κ φ) :
    StaticEventPublisher w κ φ :=
  { pub with config := { pub.config with subscriberCount := 0 } }

/-- A call of a callback, with its arguments. -/
structure CallbackCall (κ φ δ : Type) where
  callback : φ
  context : κ
  eventData : δ

/-- The `for` loop of `static_event_publisher_notify_subscribers` from `idx` on,
    up to its next call of a callback; none when the loop ends before. -/
def staticEventPublisherNotifyFrom (pub : StaticEventPublisher w κ φ) (idx : SizeT w)
    (eventData : δ) : Option (Option (CallbackCall κ φ δ)) :=
  if idx < pub.config.subscriberCount then do
    let entry ← pub.config.subscribers.load idx.toNat
    some (some ⟨entry.callback, entry.context, eventData⟩)
  else some none

/-! ## The publisher as a machine -/

/-- A notification whose callback at `idx` is running. -/
structure Notifying (w : Nat) (δ : Type) where
  idx : SizeT w
  eventData : δ

/-- A publisher with the notifications under way, the innermost first. -/
structure Publishing (w : Nat) (κ φ δ : Type) where
  pub : StaticEventPublisher w κ φ
  underWay : List (Notifying w δ)

/-- What the application does next, in a callback or in none. -/
inductive PublisherMove (w : Nat) (κ φ δ : Type) where
  | init (config : StaticEventPublisherConfig w κ φ)
  | deinit
  | notify (eventData : δ)
  | callbackReturns

/-- What comes of a move: a callback is called, at the given depth of nested
    notifications, or a notification has returned. -/
inductive PublisherResponse (κ φ δ : Type) where
  | initialised (code : ErrorCode)
  | deinitialised
  | called (depth : Nat) (call : CallbackCall κ φ δ)
  | returned

/-- Go on with a notification from `idx`, inside those of `outer`. -/
def notifyOn (pub : StaticEventPublisher w κ φ) (outer : List (Notifying w δ)) (idx : SizeT w)
    (eventData : δ) : Option (PublisherResponse κ φ δ × Publishing w κ φ δ) := do
  match ← staticEventPublisherNotifyFrom pub idx eventData with
  | some call => some (.called (outer.length + 1) call, ⟨pub, ⟨idx, eventData⟩ :: outer⟩)
  | none => some (.returned, ⟨pub, outer⟩)

/-- One move.  Outside all callbacks there is none that could return. -/
def publisherStep :
    Step (Publishing w κ φ δ) (PublisherMove w κ φ δ) (PublisherResponse κ φ δ)
  | s, .init config =>
      let (code, pub) := staticEventPublisherInit s.pub config
      some (.initialised code, { s with pub := pub })
  | s, .deinit => some (.deinitialised, { s with pub := staticEventPublisherDeinit s.pub })
  | s, .notify eventData => notifyOn s.pub s.underWay 0 eventData
  | ⟨_, []⟩, .callbackReturns => none
  | ⟨pub, notifying :: outer⟩, .callbackReturns =>
      notifyOn pub outer (notifying.idx + 1) notifying.eventData

/-! ## What it is for -/

/-- The entries of a configuration. -/
def StaticEventPublisherConfig.entries (config : StaticEventPublisherConfig w κ φ) :
    List (StaticEventPublisherEntry κ φ) :=
  config.subscribers.slice 0 config.subscriberCount.toNat

/-- The entry's callback is called with its context. -/
def StaticEventPublisherEntry.call (entry : StaticEventPublisherEntry κ φ) (eventData : δ) :
    CallbackCall κ φ δ :=
  ⟨entry.callback, entry.context, eventData⟩

/-- Who is registered, and the place that each notification under way has come to. -/
structure EventBus (κ φ δ : Type) where
  registered : List (StaticEventPublisherEntry κ φ)
  underWay : List (Nat × δ)

/-- The registered entry at a place is called, if there is one. -/
def EventBus.notifyOn (registered : List (StaticEventPublisherEntry κ φ))
    (outer : List (Nat × δ)) (place : Nat) (eventData : δ) :
    PublisherResponse κ φ δ × EventBus κ φ δ :=
  match registered[place]? with
  | some entry =>
      (.called (outer.length + 1) (entry.call eventData),
        ⟨registered, (place, eventData) :: outer⟩)
  | none => (.returned, ⟨registered, outer⟩)

/-- Who is registered after a move. -/
def registeredAfter (registered : List (StaticEventPublisherEntry κ φ)) :
    PublisherMove w κ φ δ → List (StaticEventPublisherEntry κ φ)
  | .init config => if config.entries = [] then registered else config.entries
  | .deinit => []
  | _ => registered

/-- The purpose of the component: an event goes to all who are registered, in order. -/
def eventBus : Spec (EventBus κ φ δ) (PublisherMove w κ φ δ) (PublisherResponse κ φ δ)
  | bus, .init config =>
      (.initialised (if config.entries = [] then .errInvalidArg else .errNone),
        { bus with registered :=
            if config.entries = [] then bus.registered else config.entries })
  | bus, .deinit => (.deinitialised, { bus with registered := [] })
  | bus, .notify eventData => EventBus.notifyOn bus.registered bus.underWay 0 eventData
  | ⟨registered, []⟩, .callbackReturns => (.returned, ⟨registered, []⟩)
  | ⟨registered, (place, eventData) :: outer⟩, .callbackReturns =>
      EventBus.notifyOn registered outer (place + 1) eventData

/-- A configuration comes with as many entries as it says, and a callback returns
    only when one is running. -/
def Lawful (s : Publishing w κ φ δ) : PublisherMove w κ φ δ → Prop
  | .init config => config.subscriberCount.toNat ≤ config.subscribers.size
  | .callbackReturns => s.underWay ≠ []
  | _ => True

/-- The calls of callbacks at a depth. -/
def callsAt (depth : Nat) (responses : List (PublisherResponse κ φ δ)) :
    List (CallbackCall κ φ δ) :=
  responses.filterMap fun
    | .called depth' call => if depth' = depth then some call else none
    | _ => none

/-! ## One round of the loop -/

section Round

variable {pub : StaticEventPublisher w κ φ} {idx : SizeT w}

theorem length_entries (config : StaticEventPublisherConfig w κ φ) :
    config.entries.length = config.subscriberCount.toNat := Block.length_slice _ _ _

/-- The entry at an index is in its cell. -/
theorem getElem?_entries {config : StaticEventPublisherConfig w κ φ} {i : Nat}
    (h : i < config.subscriberCount.toNat) :
    config.entries[i]? = some (config.subscribers.cell i) := by
  have hlen : i < config.entries.length := by
    rw [length_entries]
    exact h
  rw [List.getElem?_eq_getElem hlen]
  simp only [StaticEventPublisherConfig.entries, Block.getElem_slice, Nat.zero_add]

/-- Where there is an entry left, its callback is called. -/
theorem notifyOn_of_lt (outer : List (Notifying w δ))
    (hsize : pub.config.subscriberCount.toNat ≤ pub.config.subscribers.size)
    (hidx : idx.toNat < pub.config.subscriberCount.toNat) (eventData : δ) :
    ∃ entry, pub.config.entries[idx.toNat]? = some entry ∧
      notifyOn pub outer idx eventData
        = some (.called (outer.length + 1) (entry.call eventData),
            ⟨pub, ⟨idx, eventData⟩ :: outer⟩) := by
  refine ⟨_, getElem?_entries hidx, ?_⟩
  have hload := Block.load_of_lt (Nat.lt_of_lt_of_le hidx hsize)
  rw [notifyOn, staticEventPublisherNotifyFrom, if_pos (BitVec.lt_def.mpr hidx), hload]
  rfl

/-- Where there is none, the notification returns. -/
theorem notifyOn_of_ge (outer : List (Notifying w δ))
    (hidx : pub.config.subscriberCount.toNat ≤ idx.toNat) (eventData : δ) :
    pub.config.entries[idx.toNat]? = none ∧
      notifyOn pub outer idx eventData = some (.returned, ⟨pub, outer⟩) := by
  constructor
  · rw [List.getElem?_eq_none_iff, length_entries]
    exact hidx
  · have hge : ¬ idx < pub.config.subscriberCount := by
      rw [BitVec.lt_def]
      exact Nat.not_lt.mpr hidx
    rw [notifyOn, staticEventPublisherNotifyFrom, if_neg hge]
    rfl

/-- The next index does not wrap: it is at most a count. -/
theorem toNat_next (hidx : idx.toNat < pub.config.subscriberCount.toNat) :
    (idx + 1).toNat = idx.toNat + 1 := by
  have hcount := pub.config.subscriberCount.isLt
  have hone := SizeT.toNat_one (SizeT.width_pos hidx)
  rw [SizeT.toNat_add_of_lt (by omega), hone]

/-- An accepted configuration is taken, and has an entry; another changes nothing. -/
theorem init_cases (pub : StaticEventPublisher w κ φ)
    (config : StaticEventPublisherConfig w κ φ) :
    (config.entries = [] ∧ staticEventPublisherInit pub config = (.errInvalidArg, pub)) ∨
    (config.entries ≠ [] ∧ staticEventPublisherInit pub config = (.errNone, ⟨config⟩)) := by
  have hentries : config.entries = [] ↔ config.subscriberCount = 0 := by
    rw [← List.length_eq_zero_iff, length_entries, SizeT.toNat_eq_zero]
  by_cases hcount : config.subscriberCount = 0
  · refine .inl ⟨hentries.mpr hcount, ?_⟩
    simp only [staticEventPublisherInit, staticEventPublisherValidateConfig, if_pos hcount]
  · refine .inr ⟨mt hentries.mp hcount, ?_⟩
    simp only [staticEventPublisherInit, staticEventPublisherValidateConfig, if_neg hcount]

end Round

/-! ## The publisher refines the event bus -/

/-- The publisher has the entries that are registered, and its notifications are
    where those of the bus are. -/
structure Serves (s : Publishing w κ φ δ) (bus : EventBus κ φ δ) : Prop where
  size : s.pub.config.subscriberCount.toNat ≤ s.pub.config.subscribers.size
  registered : bus.registered = s.pub.config.entries
  underWay : bus.underWay = s.underWay.map fun n => (n.idx.toNat, n.eventData)
  next : ∀ n ∈ s.underWay, (n.idx + 1).toNat = n.idx.toNat + 1

section Refinement

variable {s : Publishing w κ φ δ} {bus : EventBus κ φ δ}

/-- **ONE ROUND** of a loop does what the bus does at the place. -/
theorem Serves.notifyOn {outer : List (Notifying w δ)} (h : Serves s bus) (idx : SizeT w)
    (houter : ∀ n ∈ outer, (n.idx + 1).toNat = n.idx.toNat + 1) (eventData : δ) :
    ∃ s', CembStaticEventPublisher.notifyOn s.pub outer idx eventData
        = some ((EventBus.notifyOn bus.registered
            (outer.map fun n => (n.idx.toNat, n.eventData)) idx.toNat eventData).1, s') ∧
      Serves s' (EventBus.notifyOn bus.registered
        (outer.map fun n => (n.idx.toNat, n.eventData)) idx.toNat eventData).2 := by
  rw [EventBus.notifyOn, h.registered]
  rcases Nat.lt_or_ge idx.toNat s.pub.config.subscriberCount.toNat with hlt | hge
  · obtain ⟨entry, hentry, hcall⟩ := notifyOn_of_lt outer h.size hlt eventData
    rw [hentry]
    refine ⟨⟨s.pub, ⟨idx, eventData⟩ :: outer⟩, ?_, h.size, rfl, rfl, ?_⟩
    · rw [hcall, List.length_map]
    · intro n hn
      rcases List.mem_cons.mp hn with rfl | hn
      · exact toNat_next hlt
      · exact houter n hn
  · obtain ⟨hnone, hreturn⟩ := notifyOn_of_ge outer hge eventData
    rw [hnone]
    exact ⟨⟨s.pub, outer⟩, hreturn, h.size, rfl, rfl, houter⟩

/-- **ONE MOVE** does what the bus does. -/
theorem Serves.step (h : Serves s bus) {move : PublisherMove w κ φ δ} (hlawful : Lawful s move) :
    ∃ s', publisherStep s move = some ((eventBus bus move).1, s') ∧
      Serves s' (eventBus bus move).2 := by
  cases move with
  | init config =>
      rcases init_cases s.pub config with ⟨hnone, hinit⟩ | ⟨hsome, hinit⟩
      · simp only [eventBus, if_pos hnone]
        refine ⟨s, ?_, h⟩
        rw [publisherStep, hinit]
      · simp only [eventBus, if_neg hsome]
        refine ⟨{ s with pub := ⟨config⟩ }, ?_, hlawful, rfl, h.underWay, h.next⟩
        rw [publisherStep, hinit]
  | deinit =>
      refine ⟨_, rfl, ?_, ?_, h.underWay, h.next⟩
      · show (0 : SizeT w).toNat ≤ _
        simp
      · show [] = Block.slice _ 0 (0 : SizeT w).toNat
        simp [Block.slice]
  | notify eventData =>
      obtain ⟨s', hstep, h'⟩ := h.notifyOn 0 h.next eventData
      rw [eventBus, h.underWay]
      have hzero : (0 : SizeT w).toNat = 0 := SizeT.toNat_eq_zero.mpr rfl
      rw [hzero] at hstep h'
      exact ⟨s', hstep, h'⟩
  | callbackReturns =>
      obtain ⟨pub, underWay⟩ := s
      cases underWay with
      | nil => exact absurd rfl hlawful
      | cons n outer =>
          obtain ⟨hnext, houter⟩ := List.forall_mem_cons.mp h.next
          obtain ⟨s', hstep, h'⟩ := h.notifyOn (n.idx + 1) houter n.eventData
          obtain ⟨registered, places⟩ := bus
          obtain rfl := h.underWay
          rw [hnext] at hstep h'
          exact ⟨s', hstep, h'⟩

end Refinement

/-! ### Whom the bus calls -/

section Bus

variable {bus : EventBus κ φ δ}

/-- What one move does on the bus: who is registered follows the move; who is called
    is registered, with the event of the move or of a notification under way. -/
structure MoveOf (bus : EventBus κ φ δ) (move : PublisherMove w κ φ δ)
    (result : PublisherResponse κ φ δ × EventBus κ φ δ) : Prop where
  registered : result.2.registered = registeredAfter bus.registered move
  called : ∀ depth call, result.1 = .called depth call →
    ∃ entry ∈ registeredAfter bus.registered move, ∃ eventData,
      call = entry.call eventData ∧ (move = .notify eventData ∨
        eventData ∈ bus.underWay.map Prod.snd)
  underWay : ∀ eventData ∈ result.2.underWay.map Prod.snd,
    move = .notify eventData ∨ eventData ∈ bus.underWay.map Prod.snd

/-- A round of a loop is such a move, where its event is. -/
theorem moveOf_notifyOn {move : PublisherMove w κ φ δ} {outer : List (Nat × δ)} {place : Nat}
    {eventData : δ} (hmove : registeredAfter bus.registered move = bus.registered)
    (hevent : move = .notify eventData ∨ eventData ∈ bus.underWay.map Prod.snd)
    (houter : ∀ p ∈ outer, p ∈ bus.underWay) :
    MoveOf bus move (EventBus.notifyOn bus.registered outer place eventData) := by
  have hold : ∀ d ∈ outer.map Prod.snd, d ∈ bus.underWay.map Prod.snd := by
    intro d hd
    obtain ⟨p, hp, rfl⟩ := List.mem_map.mp hd
    exact List.mem_map_of_mem (houter p hp)
  rw [EventBus.notifyOn]
  cases hentry : bus.registered[place]? with
  | none =>
      refine ⟨hmove.symm, (fun _ _ h => nomatch h), ?_⟩
      intro d hd
      exact .inr (hold d hd)
  | some entry =>
      refine ⟨hmove.symm, ?_, ?_⟩
      · rintro depth call ⟨⟩
        rw [hmove]
        exact ⟨entry, List.mem_of_getElem? hentry, eventData, rfl, hevent⟩
      · intro d hd
        rcases List.mem_cons.mp hd with rfl | hd
        · exact hevent
        · exact .inr (hold d hd)

theorem eventBus_moveOf (bus : EventBus κ φ δ) (move : PublisherMove w κ φ δ) :
    MoveOf bus move (eventBus bus move) := by
  cases move with
  | init config => exact ⟨rfl, (fun _ _ h => nomatch h), fun _ hd => .inr hd⟩
  | deinit => exact ⟨rfl, (fun _ _ h => nomatch h), fun _ hd => .inr hd⟩
  | notify eventData => exact moveOf_notifyOn rfl (.inl rfl) fun _ hp => hp
  | callbackReturns =>
      obtain ⟨registered, underWay⟩ := bus
      cases underWay with
      | nil => exact ⟨rfl, (fun _ _ h => nomatch h), fun _ hd => .inr hd⟩
      | cons p outer =>
          refine moveOf_notifyOn rfl (.inr ?_) ?_
          · exact List.mem_cons_self
          · intro _ hp
            exact List.mem_cons_of_mem _ hp

/-- On a run of the bus, whoever is called is registered at the time, and is told of
    an event that has been published. -/
theorem eventBus_calls_registered (moves : List (PublisherMove w κ φ δ))
    (bus : EventBus κ φ δ) {n depth : Nat} {call : CallbackCall κ φ δ}
    (hcalled : (runSpec eventBus bus moves).1[n]? = some (.called depth call)) :
    ∃ entry ∈ (moves.take (n + 1)).foldl registeredAfter bus.registered, ∃ eventData,
      call = entry.call eventData ∧ (.notify eventData ∈ moves.take (n + 1) ∨
        eventData ∈ bus.underWay.map Prod.snd) := by
  induction moves generalizing bus n with
  | nil => exact nomatch hcalled
  | cons move moves ih =>
      have hmove := eventBus_moveOf bus move
      cases n with
      | zero =>
          obtain ⟨entry, hentry, eventData, hcall, hevent⟩ :=
            hmove.called depth call (Option.some.inj hcalled)
          refine ⟨entry, hentry, eventData, hcall, ?_⟩
          exact hevent.imp_left fun h => List.mem_singleton.mpr h.symm
      | succ n =>
          obtain ⟨entry, hentry, eventData, hcall, hevent⟩ := ih (eventBus bus move).2 hcalled
          rw [hmove.registered] at hentry
          refine ⟨entry, hentry, eventData, hcall, ?_⟩
          rcases hevent with hlater | hold
          · exact .inl (List.mem_cons_of_mem _ hlater)
          · exact (hmove.underWay eventData hold).imp_left fun h => by
              rw [h]
              exact List.mem_cons_self

end Bus

/-- **ONLY WHO IS REGISTERED IS CALLED.**  Whatever the application does in its
    callbacks and outside, nested notifications, deinit and new inits included, the
    publisher answers as the event bus does and reads no entry that there is not;
    every callback is called with its own context, while it is registered, for an
    event that has been published. -/
theorem static_event_publisher_refines_event_bus {pub pub₀ : StaticEventPublisher w κ φ}
    {config : StaticEventPublisherConfig w κ φ}
    (hinit : staticEventPublisherInit pub config = (.errNone, pub₀))
    (hentries : config.subscriberCount.toNat ≤ config.subscribers.size)
    (moves : List (PublisherMove w κ φ δ))
    (hlawful : Admits publisherStep Lawful ⟨pub₀, []⟩ moves) :
    ∃ responses s, run publisherStep ⟨pub₀, []⟩ moves = some (responses, s) ∧
      responses = (runSpec eventBus ⟨config.entries, []⟩ moves).1 ∧
      ∀ n depth call, responses[n]? = some (.called depth call) →
        ∃ entry ∈ (moves.take (n + 1)).foldl registeredAfter config.entries, ∃ eventData,
          call = entry.call eventData ∧ .notify eventData ∈ moves.take (n + 1) := by
  have hserves : Serves (⟨pub₀, []⟩ : Publishing w κ φ δ) ⟨config.entries, []⟩ := by
    rcases init_cases pub config with ⟨-, hrefused⟩ | ⟨-, haccepted⟩
    · rw [hrefused] at hinit
      cases hinit
    · rw [haccepted] at hinit
      obtain ⟨-, rfl⟩ := Prod.mk.inj hinit
      exact ⟨hentries, rfl, rfl, fun _ hn => nomatch hn⟩
  have hsim : ∀ (s : Publishing w κ φ δ) bus move, Serves s bus → Lawful s move →
      ∃ s', publisherStep s move = some ((eventBus bus move).1, s') ∧
        Serves s' (eventBus bus move).2 := fun _ _ _ h hmove => h.step hmove
  obtain ⟨s, hrun, -⟩ := run_refines_of_admits hsim moves _ _ hserves hlawful
  refine ⟨_, s, hrun, rfl, ?_⟩
  intro n depth call hcalled
  obtain ⟨entry, hentry, eventData, hcall, hevent⟩ := eventBus_calls_registered moves _ hcalled
  exact ⟨entry, hentry, eventData, hcall, hevent.resolve_right List.not_mem_nil⟩

/-- Callback 1 with context 10, callback 2 with context 20. -/
def twoSubscribers : StaticEventPublisherConfig 8 Nat Nat where
  subscribers := ⟨2, fun i => ⟨10 * (i + 1), i + 1⟩⟩
  subscriberCount := 2

/-- The first callback publishes an event of its own, in which the publisher is taken
    down: the second callback hears of neither. -/
theorem static_event_publisher_refines_event_bus_two :
    ∃ s, run publisherStep (⟨⟨twoSubscribers⟩, []⟩ : Publishing 8 Nat Nat Nat)
        [.notify 7, .notify 8, .deinit, .callbackReturns, .callbackReturns]
      = some ([.called 1 ⟨1, 10, 7⟩, .called 2 ⟨1, 10, 8⟩, .deinitialised, .returned,
          .returned], s) := by
  have hinit : staticEventPublisherInit (⟨twoSubscribers⟩ : StaticEventPublisher 8 Nat Nat)
      twoSubscribers = (.errNone, ⟨twoSubscribers⟩) := rfl
  have hlawful : Admits publisherStep Lawful
      (⟨⟨twoSubscribers⟩, []⟩ : Publishing 8 Nat Nat Nat)
      [.notify 7, .notify 8, .deinit, .callbackReturns, .callbackReturns] :=
    Admits.cons trivial rfl (Admits.cons trivial rfl (Admits.cons trivial rfl
      (Admits.cons (List.cons_ne_nil _ _) rfl (Admits.cons (List.cons_ne_nil _ _) rfl trivial))))
  obtain ⟨responses, s, hrun, rfl, -⟩ :=
    static_event_publisher_refines_event_bus hinit (by decide) _ hlawful
  exact ⟨s, hrun⟩

/-! ## One notification, from its start to its return -/

section Notification

variable {s : Publishing w κ φ δ} {eventData : δ}

theorem callsAt_concat (depth : Nat) (past : List (PublisherResponse κ φ δ))
    (response : PublisherResponse κ φ δ) :
    callsAt depth (past ++ [response]) = callsAt depth past ++ callsAt depth [response] := by
  simp only [callsAt, List.filterMap_append]

theorem callsAt_called_self (depth : Nat) (call : CallbackCall κ φ δ) :
    callsAt depth [.called depth call] = [call] := by
  simp [callsAt]

theorem callsAt_called_of_ne {depth depth' : Nat} (h : depth' ≠ depth)
    (call : CallbackCall κ φ δ) : callsAt depth [.called depth' call] = [] := by
  simp [callsAt, h]

theorem callsAt_returned (depth : Nat) :
    callsAt depth [(.returned : PublisherResponse κ φ δ)] = [] := rfl

/-- Where a notification of the event that `s` has started has come to, after the
    responses `past`: it runs the callback at an index, perhaps with other
    notifications inside; or it has returned. -/
inductive Delivering (s : Publishing w κ φ δ) (eventData : δ)
    (past : List (PublisherResponse κ φ δ)) (s' : Publishing w κ φ δ) : Prop where
  | running {inner : List (Notifying w δ)} {idx : SizeT w}
      (underWay : s'.underWay = inner ++ ⟨idx, eventData⟩ :: s.underWay)
      (bound : idx.toNat < s.pub.config.subscriberCount.toNat)
      (calls : callsAt (s.underWay.length + 1) past
        = (s.pub.config.entries.take (idx.toNat + 1)).map (·.call eventData))
  | returned (underWay : s'.underWay = s.underWay)
      (calls : callsAt (s.underWay.length + 1) past
        = s.pub.config.entries.map (·.call eventData))

/-- The move leaves the subscribers as they are. -/
def LeavesSubscribers : PublisherMove w κ φ δ → Prop
  | .init _ => False
  | .deinit => False
  | _ => True

/-- A round at the depth of the notification calls the next of its entries, or ends it. -/
theorem delivering_notifyOn {past : List (PublisherResponse κ φ δ)} {idx : SizeT w}
    (hsize : s.pub.config.subscriberCount.toNat ≤ s.pub.config.subscribers.size)
    (hpast : callsAt (s.underWay.length + 1) past
      = (s.pub.config.entries.take idx.toNat).map (·.call eventData)) :
    ∃ response s', notifyOn s.pub s.underWay idx eventData = some (response, s') ∧
      s'.pub = s.pub ∧ Delivering s eventData (past ++ [response]) s' := by
  rcases Nat.lt_or_ge idx.toNat s.pub.config.subscriberCount.toNat with hlt | hge
  · obtain ⟨entry, hentry, hcall⟩ := notifyOn_of_lt s.underWay hsize hlt eventData
    refine ⟨_, _, hcall, rfl, .running (List.nil_append _).symm hlt ?_⟩
    rw [callsAt_concat, hpast, callsAt_called_self, List.take_add_one, hentry, List.map_append]
    rfl
  · obtain ⟨hnone, hreturn⟩ := notifyOn_of_ge s.underWay hge eventData
    refine ⟨_, _, hreturn, rfl, .returned rfl ?_⟩
    have hlen := List.getElem?_eq_none_iff.mp hnone
    rw [callsAt_concat, hpast, callsAt_returned, List.append_nil, List.take_of_length_le hlen]

/-- A round inside a callback of the notification calls no entry at its depth. -/
theorem delivering_inside {past : List (PublisherResponse κ φ δ)} {inner : List (Notifying w δ)}
    {idx idx' : SizeT w} {eventData' : δ}
    (hsize : s.pub.config.subscriberCount.toNat ≤ s.pub.config.subscribers.size)
    (hbound : idx.toNat < s.pub.config.subscriberCount.toNat)
    (hpast : callsAt (s.underWay.length + 1) past
      = (s.pub.config.entries.take (idx.toNat + 1)).map (·.call eventData)) :
    ∃ response s', notifyOn s.pub (inner ++ ⟨idx, eventData⟩ :: s.underWay) idx' eventData'
        = some (response, s') ∧
      s'.pub = s.pub ∧ Delivering s eventData (past ++ [response]) s' := by
  let outer := inner ++ ⟨idx, eventData⟩ :: s.underWay
  rcases Nat.lt_or_ge idx'.toNat s.pub.config.subscriberCount.toNat with hlt | hge
  · obtain ⟨entry, -, hcall⟩ := notifyOn_of_lt outer hsize hlt eventData'
    refine ⟨_, _, hcall, rfl, .running (List.cons_append).symm hbound ?_⟩
    have hdeeper : outer.length + 1 ≠ s.underWay.length + 1 := by
      simp only [outer, List.length_append, List.length_cons]
      omega
    rw [callsAt_concat, hpast, callsAt_called_of_ne hdeeper, List.append_nil]
  · obtain ⟨-, hreturn⟩ := notifyOn_of_ge outer hge eventData'
    refine ⟨_, _, hreturn, rfl, .running rfl hbound ?_⟩
    rw [callsAt_concat, hpast, callsAt_returned, List.append_nil]

/-- **ONE MOVE** inside the notification carries it on. -/
theorem Delivering.step {past : List (PublisherResponse κ φ δ)} {s' : Publishing w κ φ δ}
    {move : PublisherMove w κ φ δ} (h : Delivering s eventData past s') (hpub : s'.pub = s.pub)
    (hsize : s.pub.config.subscriberCount.toNat ≤ s.pub.config.subscribers.size)
    (hinside : s.underWay.length < s'.underWay.length) (hmove : LeavesSubscribers move) :
    ∃ response s'', publisherStep s' move = some (response, s'') ∧ s''.pub = s.pub ∧
      Delivering s eventData (past ++ [response]) s'' := by
  obtain ⟨pub, underWay⟩ := s'
  obtain rfl : pub = s.pub := hpub
  cases h with
  | returned hunderWay _ =>
      rw [hunderWay] at hinside
      exact absurd hinside (Nat.lt_irrefl _)
  | @running inner idx hunderWay hbound hcalls =>
      obtain rfl : underWay = _ := hunderWay
      cases move with
      | init config => exact absurd hmove id
      | deinit => exact absurd hmove id
      | notify eventData' => exact delivering_inside hsize hbound hcalls
      | callbackReturns =>
          cases inner with
          | nil =>
              have hnext := toNat_next hbound
              rw [← hnext] at hcalls
              exact delivering_notifyOn hsize hcalls
          | cons n inner => exact delivering_inside hsize hbound hcalls

/-- Any moves inside the notification carry it on. -/
theorem Delivering.run {past : List (PublisherResponse κ φ δ)} {s' : Publishing w κ φ δ}
    {moves : List (PublisherMove w κ φ δ)} (h : Delivering s eventData past s')
    (hpub : s'.pub = s.pub)
    (hsize : s.pub.config.subscriberCount.toNat ≤ s.pub.config.subscribers.size)
    (hinside : Admits publisherStep
      (fun s₁ move => s.underWay.length < s₁.underWay.length ∧ LeavesSubscribers move) s' moves) :
    ∃ responses s'', Transducer.run publisherStep s' moves = some (responses, s'') ∧
      Delivering s eventData (past ++ responses) s'' := by
  induction moves generalizing past s' with
  | nil =>
      refine ⟨[], s', rfl, ?_⟩
      rw [List.append_nil]
      exact h
  | cons move moves ih =>
      obtain ⟨⟨hdeep, hmove⟩, hrest⟩ := hinside
      obtain ⟨response, s₁, hstep, hpub₁, h₁⟩ := h.step hpub hsize hdeep hmove
      obtain ⟨responses, s'', hrun, h''⟩ := ih h₁ hpub₁ (hrest response s₁ hstep)
      refine ⟨response :: responses, s'', by rw [run_cons hstep, hrun]; rfl, ?_⟩
      rw [List.append_cons]
      exact h''

end Notification

/-- **EVERY SUBSCRIBER ONCE, IN ORDER.**  As long as the callbacks leave the
    subscribers as they are, whatever they publish besides, a notification is always
    defined; when its callback at an index runs, the calls made at its depth are those
    of the entries up to there, and when it has returned, those of all entries. -/
theorem static_event_publisher_delivers_once (s : Publishing w κ φ δ) (eventData : δ)
    (hsize : s.pub.config.subscriberCount.toNat ≤ s.pub.config.subscribers.size)
    (moves : List (PublisherMove w κ φ δ))
    (hinside : ∀ response s₁, publisherStep s (.notify eventData) = some (response, s₁) →
      Admits publisherStep (fun s' move =>
        s.underWay.length < s'.underWay.length ∧ LeavesSubscribers move) s₁ moves) :
    ∃ responses s', run publisherStep s (.notify eventData :: moves) = some (responses, s') ∧
      ((s'.underWay = s.underWay ∧ callsAt (s.underWay.length + 1) responses
          = s.pub.config.entries.map (·.call eventData)) ∨
        ∃ inner idx, s'.underWay = inner ++ ⟨idx, eventData⟩ :: s.underWay ∧
          idx.toNat < s.pub.config.entries.length ∧ callsAt (s.underWay.length + 1) responses
            = (s.pub.config.entries.take (idx.toNat + 1)).map (·.call eventData)) := by
  have hnone : callsAt (s.underWay.length + 1) ([] : List (PublisherResponse κ φ δ))
      = (s.pub.config.entries.take (0 : SizeT w).toNat).map (·.call eventData) := by
    rw [SizeT.toNat_eq_zero.mpr rfl, List.take_zero]
    rfl
  obtain ⟨response, s₁, hround, hpub, h₁⟩ := delivering_notifyOn hsize hnone
  have hstep : publisherStep s (.notify eventData) = some (response, s₁) := hround
  obtain ⟨responses, s', hrun, h'⟩ := h₁.run hpub hsize (hinside response s₁ hstep)
  refine ⟨response :: responses, s', by rw [run_cons hstep, hrun]; rfl, ?_⟩
  cases h' with
  | returned hunderWay hcalls => exact .inl ⟨hunderWay, hcalls⟩
  | running hunderWay hbound hcalls =>
      rw [← length_entries] at hbound
      exact .inr ⟨_, _, hunderWay, hbound, hcalls⟩

/-- Two subscribers; the first publishes an event of its own. -/
theorem static_event_publisher_delivers_once_two :
    ∃ responses s', run publisherStep (⟨⟨twoSubscribers⟩, []⟩ : Publishing 8 Nat Nat Nat)
        [.notify 7, .notify 8, .callbackReturns, .callbackReturns, .callbackReturns,
          .callbackReturns] = some (responses, s') ∧
      s'.underWay = [] ∧ callsAt 1 responses = [⟨1, 10, 7⟩, ⟨2, 20, 7⟩] := by
  have hinside : ∀ response s₁, publisherStep (⟨⟨twoSubscribers⟩, []⟩ : Publishing 8 Nat Nat Nat)
      (.notify 7) = some (response, s₁) → Admits publisherStep (fun s' move =>
        0 < s'.underWay.length ∧ LeavesSubscribers move) s₁
        [.notify 8, .callbackReturns, .callbackReturns, .callbackReturns, .callbackReturns] := by
    intro response s₁ hstep
    obtain ⟨-, rfl⟩ := Prod.mk.inj (Option.some.inj hstep)
    exact Admits.cons ⟨by decide, trivial⟩ rfl (Admits.cons ⟨by decide, trivial⟩ rfl
      (Admits.cons ⟨by decide, trivial⟩ rfl (Admits.cons ⟨by decide, trivial⟩ rfl
        (Admits.cons ⟨by decide, trivial⟩ rfl trivial))))
  obtain ⟨responses, s', hrun, hdelivered⟩ :=
    static_event_publisher_delivers_once ⟨⟨twoSubscribers⟩, []⟩ 7 (by decide) _ hinside
  obtain ⟨-, hend⟩ := Prod.mk.inj (Option.some.inj hrun)
  rcases hdelivered with ⟨hunderWay, hcalls⟩ | ⟨inner, idx, hunderWay, -⟩
  · exact ⟨responses, s', hrun, hunderWay, hcalls⟩
  · -- the stack of this run is empty at its end
    rw [← hend] at hunderWay
    exact absurd hunderWay.symm (List.append_ne_nil_of_right_ne_nil _ (List.cons_ne_nil _ _))

/-! ## After a deinit -/

/-- The move is the return of a callback. -/
def isReturn : PublisherMove w κ φ δ → Bool
  | .callbackReturns => true
  | _ => false

/-- The move is no init, and is a return only inside a callback. -/
def GoesOnClosed (s : Publishing w κ φ δ) : PublisherMove w κ φ δ → Prop
  | .init _ => False
  | .callbackReturns => s.underWay ≠ []
  | _ => True

/-- **ONE MOVE** without subscribers calls nobody, and a callback that returns is
    the last one of its notification. -/
theorem step_of_closed {s : Publishing w κ φ δ} {move : PublisherMove w κ φ δ}
    (hclosed : s.pub.config.subscriberCount = 0) (hmove : GoesOnClosed s move) :
    ∃ response s', publisherStep s move = some (response, s') ∧
      s'.pub.config.subscriberCount = 0 ∧ (∀ depth call, response ≠ .called depth call) ∧
      s'.underWay = s.underWay.drop (if isReturn move then 1 else 0) := by
  have hover : ∀ idx : SizeT w, s.pub.config.subscriberCount.toNat ≤ idx.toNat := by
    intro idx
    rw [SizeT.toNat_eq_zero.mpr hclosed]
    exact Nat.zero_le _
  cases move with
  | init config => exact absurd hmove id
  | deinit => exact ⟨_, _, rfl, rfl, (fun _ _ h => nomatch h), rfl⟩
  | notify eventData =>
      obtain ⟨-, hreturn⟩ := notifyOn_of_ge s.underWay (hover 0) eventData
      exact ⟨_, _, hreturn, hclosed, (fun _ _ h => nomatch h), rfl⟩
  | callbackReturns =>
      obtain ⟨pub, underWay⟩ := s
      cases underWay with
      | nil => exact absurd rfl hmove
      | cons n outer =>
          obtain ⟨-, hreturn⟩ := notifyOn_of_ge outer (hover (n.idx + 1)) n.eventData
          exact ⟨_, _, hreturn, hclosed, (fun _ _ h => nomatch h), rfl⟩

/-- **DEINIT CUTS OFF EVERY NOTIFICATION.**  After a deinit, in a callback or in none,
    nobody is called before the next init, however many events are published; and each
    callback that is still running ends its notification when it returns. -/
theorem static_event_publisher_deinit_silences (s : Publishing w κ φ δ)
    (moves : List (PublisherMove w κ φ δ))
    (hmoves : Admits publisherStep GoesOnClosed
      { s with pub := staticEventPublisherDeinit s.pub } moves) :
    ∃ responses s', run publisherStep { s with pub := staticEventPublisherDeinit s.pub } moves
        = some (responses, s') ∧
      (∀ depth call, .called depth call ∉ responses) ∧
      s'.underWay = s.underWay.drop (moves.countP isReturn) := by
  have hruns : ∀ (moves : List (PublisherMove w κ φ δ)) (s : Publishing w κ φ δ),
      s.pub.config.subscriberCount = 0 → Admits publisherStep GoesOnClosed s moves →
      ∃ responses s', run publisherStep s moves = some (responses, s') ∧
        (∀ depth call, .called depth call ∉ responses) ∧
        s'.underWay = s.underWay.drop (moves.countP isReturn) := by
    intro moves
    induction moves with
    | nil => intro s _ _; exact ⟨[], s, rfl, fun _ _ => List.not_mem_nil, rfl⟩
    | cons move moves ih =>
        intro s hclosed hadm
        obtain ⟨hmove, hrest⟩ := hadm
        obtain ⟨response, s₁, hstep, hclosed₁, hnobody, hdrop⟩ := step_of_closed hclosed hmove
        obtain ⟨responses, s', hrun, hnone, hunderWay⟩ :=
          ih s₁ hclosed₁ (hrest response s₁ hstep)
        refine ⟨response :: responses, s', by rw [run_cons hstep, hrun]; rfl, ?_, ?_⟩
        · intro depth call hmem
          rcases List.mem_cons.mp hmem with hfirst | hlater
          · exact hnobody depth call hfirst.symm
          · exact hnone depth call hlater
        · rw [hunderWay, hdrop, List.drop_drop, List.countP_cons, Nat.add_comm]
  exact hruns moves _ rfl hmoves

/-- A deinit in the callback of an event, a second event, and the return. -/
theorem static_event_publisher_deinit_silences_in_callback :
    ∃ responses s', run publisherStep
        (⟨staticEventPublisherDeinit ⟨twoSubscribers⟩, [⟨0, 7⟩]⟩ : Publishing 8 Nat Nat Nat)
        [.notify 8, .callbackReturns] = some (responses, s') ∧
      (∀ depth call, .called depth call ∉ responses) ∧ s'.underWay = [] := by
  have hmoves : Admits publisherStep GoesOnClosed
      (⟨staticEventPublisherDeinit ⟨twoSubscribers⟩, [⟨0, 7⟩]⟩ : Publishing 8 Nat Nat Nat)
      [.notify 8, .callbackReturns] :=
    Admits.cons trivial rfl (Admits.cons (List.cons_ne_nil _ _) rfl trivial)
  exact static_event_publisher_deinit_silences ⟨⟨twoSubscribers⟩, [⟨0, 7⟩]⟩ _ hmoves

end CembStaticEventPublisher
