import Roster.Proofs.Backlog
/-! # Every subscriber receives what is published

What the actions on a channel tell of one who may subscribe is a standing. Every action keeps the
channel in line with the standings, so that after any run a subscriber receives the envelopes of
one action, but for the oldest if they are more than the channel holds. -/
namespace Roster
namespace Channel

/-- What the actions on a channel tell of one who may subscribe to it. -/
structure Standing where
  connected : Bool := true
  closed : Bool := false
  listening : Bool := false
  deriving DecidableEq, Repr

def Standing.after (who : String) (t : Standing) : Action → Standing
  | .subscribe name => if name = who ∧ t.closed = false then { t with listening := true } else t
  | .unsubscribe name => if name = who then { t with listening := false } else t
  | .publish _ => t
  | .setConnected connected => { t with connected }
  | .close => { t with closed := true, listening := false }

def standing (who : String) (run : List Action) : Standing := run.foldl (Standing.after who) {}

def course (c : Channel) (run : List Action) : Channel := run.foldl (fun c a => (c.perform a).1) c

/-- The envelopes that an action is to publish. -/
def Action.envelopes : Action → List Envelope
  | .publish es => es
  | _ => []

/-- The envelopes of an action of which the publishing succeeded. -/
def Reply.accepted (r : Reply) (a : Action) : List Envelope :=
  match r with
  | .published attempts =>
    ((a.envelopes.zip attempts).filter fun p => p.2.result.toBool).map (·.1)
  | _ => []

/-- The action is not about the subscription under another name. -/
def Action.concerns (who : String) : Action → Bool
  | .subscribe name => name == who
  | .unsubscribe name => name == who
  | _ => true

/-- All that is delivered to whoever subscribes under a name. -/
def received (who : String) (deliveries : List Delivery) : Delivery :=
  let own := deliveries.filter fun d => d.subscriber == who
  { subscriber := who, envelopes := own.flatMap (·.envelopes), events := own.flatMap (·.events) }

/-- The subscription under a name is running. -/
def runs (who : String) (s : Subscriber) : Bool := s.name == who && s.active

/-- The channel is as the standing of one who may listen tells, and whoever listens awaits the
envelopes. -/
structure Stands (c : Channel) (who : String) (t : Standing) (es : List Envelope) : Prop where
  connected : c.connected = t.connected
  closed : c.closed = t.closed
  listening : t.listening = true → ∃ next, c.subscribers.filter (runs who) = [⟨who, next, true⟩] ∧
    c.Awaits ⟨who, next, true⟩ (es.map Envelope.encode)
  silent : t.listening = false → c.subscribers.filter (runs who) = []

theorem filter_runs_without (c : Channel) (name who : String) :
    (c.without name).filter (runs who) =
      if name = who then [] else c.subscribers.filter (runs who) := by
  rw [without, List.filter_filter]
  split
  · rename_i h
    rw [List.filter_eq_nil_iff]
    intro s _
    simp only [runs, h, Bool.and_eq_true, beq_iff_eq, bne_iff_ne, not_and]
    exact fun hs hne => hne hs.1
  · rename_i h
    apply List.filter_congr
    intro s _
    by_cases hs : s.name = who
    · simp [runs, hs, Ne.symm h]
    · simp [runs, hs]

theorem act_subscribe {c : Channel} (hopen : c.closed = false) (name : String) :
    (c.act (.subscribe name)).1 =
      { c with subscribers := c.without name ++ [{ name, next := c.sent }] } := by
  simp [act, subscribe, hopen]

section

variable {c : Channel} {who : String} {t : Standing} {es : List Envelope}

/-- Whether one listens depends on the subscriptions alone, and what it awaits on its own place and
the payloads. -/
private theorem Stands.of_runs (h : c.Stands who t es) {d : Channel} {u : Standing}
    (hconnected : d.connected = u.connected) (hclosed : d.closed = u.closed)
    (hlistening : u.listening = t.listening)
    (hruns : d.subscribers.filter (runs who) = c.subscribers.filter (runs who))
    (hsent : d.sent = c.sent) (hring : d.ring = c.ring) (hcapacity : d.capacity = c.capacity) :
    d.Stands who u es where
  connected := hconnected
  closed := hclosed
  listening hl := by
    obtain ⟨next, hplace, hawaits⟩ := h.listening (hlistening ▸ hl)
    refine ⟨next, hruns.trans hplace, hsent.trans hawaits.sent, ?_⟩
    rw [hring, hcapacity]
    exact hawaits.ring
  silent hl := hruns.trans (h.silent (hlistening ▸ hl))

theorem Stands.subscribe_closed (h : c.Stands who t es) (hclosed : t.closed = true) (name : String) :
    (c.act (.subscribe name)).1.Stands who t es := by
  have hc : c.closed = true := h.closed.trans hclosed
  simpa [act, subscribe, hc] using h

theorem Stands.subscribe_other (h : c.Stands who t es) {name : String} (hname : name ≠ who) :
    (c.act (.subscribe name)).1.Stands who t es := by
  cases hclosed : t.closed with
  | true => exact h.subscribe_closed hclosed name
  | false =>
    rw [act_subscribe (h.closed.trans hclosed)]
    refine h.of_runs h.connected h.closed rfl ?_ rfl rfl rfl
    have hnew : [({ name, next := c.sent } : Subscriber)].filter (runs who) = [] := by
      simp [runs, hname]
    rw [List.filter_append, filter_runs_without, if_neg hname, hnew, List.append_nil]

/-- A new subscription begins behind all that was published. -/
theorem stands_subscribe (hopen : c.closed = false) (who : String) :
    (c.act (.subscribe who)).1.Stands who
      { connected := c.connected, closed := c.closed, listening := true } [] := by
  rw [act_subscribe hopen]
  refine ⟨rfl, rfl, fun _ => ⟨c.sent, ?_, awaits_nil rfl⟩, fun hl => (by cases hl)⟩
  have hnew : [({ name := who, next := c.sent } : Subscriber)].filter (runs who) =
      [⟨who, c.sent, true⟩] := by simp [runs]
  rw [List.filter_append, filter_runs_without, if_pos rfl, hnew, List.nil_append]

theorem Stands.unsubscribe (h : c.Stands who t es) (name : String) :
    (c.act (.unsubscribe name)).1.Stands who (t.after who (.unsubscribe name)) es := by
  have hruns := c.filter_runs_without name who
  rw [Standing.after]
  split
  · rename_i hself
    rw [if_pos hself] at hruns
    exact ⟨h.connected, h.closed, fun hl => (by cases hl), fun _ => hruns⟩
  · rename_i hother
    rw [if_neg hother] at hruns
    exact h.of_runs h.connected h.closed rfl hruns rfl rfl rfl

theorem Stands.setConnected (h : c.Stands who t es) (connected : Bool) :
    (c.setConnected connected).Stands who { t with connected } es :=
  h.of_runs rfl h.closed rfl rfl rfl rfl rfl

theorem Stands.close (h : c.Stands who t es) :
    c.close.Stands who { t with closed := true, listening := false } es := by
  refine ⟨h.connected, rfl, fun hl => (by cases hl), fun _ => ?_⟩
  simp [Channel.close, runs, List.filter_map, Function.comp_def]

@[simp] theorem isReady_publish (c : Channel) (e : Envelope) : (c.publish e).1.isReady = c.isReady := by
  unfold Channel.publish
  split
  · rfl
  · split <;> rfl

/-- What is published reaches whoever listens, unless the channel refuses it. -/
theorem Stands.publish (h : c.Stands who t es) (e : Envelope) :
    (c.publish e).1.Stands who t (if c.isReady then es ++ [e] else es) := by
  cases hready : c.isReady with
  | false => simpa [Channel.publish, hready] using h
  | true =>
    simp only [Channel.publish, hready, Bool.not_true, Bool.false_eq_true, if_false, if_true]
    cases hl : t.listening with
    | false =>
      refine ⟨?_, ?_, fun hl' => by simp [hl] at hl', fun _ => ?_⟩
      · split <;> exact h.connected
      · split <;> exact h.closed
      · split <;> exact h.silent hl
    | true =>
      obtain ⟨next, hplace, hawaits⟩ := h.listening hl
      have hmem : (⟨who, next, true⟩ : Subscriber) ∈ c.subscribers.filter (runs who) :=
        hplace ▸ List.mem_singleton_self _
      have hheard : c.heard = true :=
        List.any_eq_true.mpr ⟨_, (List.mem_filter.mp hmem).1, rfl⟩
      rw [if_pos hheard]
      refine ⟨h.connected, h.closed, fun _ => ⟨next, hplace, ?_⟩, fun hl' => by simp [hl] at hl'⟩
      rw [List.map_append]
      exact hawaits.push e.encode

theorem Stands.publishAll (h : c.Stands who t es) (more : List Envelope) :
    (c.publishAll more).1.Stands who t (if c.isReady then es ++ more else es) := by
  induction more generalizing c es with
  | nil => simpa [Channel.publishAll] using h
  | cons e more ih =>
    have hrest := ih (h.publish e)
    rw [isReady_publish] at hrest
    cases hready : c.isReady <;> simpa [Channel.publishAll, hready] using hrest

/-- Either all envelopes of an action are accepted or none is. -/
theorem accepted_publishAll (c : Channel) (es : List Envelope) :
    Reply.accepted (.published (c.publishAll es).2) (.publish es) = if c.isReady then es else [] := by
  have hresult (c : Channel) (e : Envelope) : (c.publish e).2.result.toBool = c.isReady := by
    unfold Channel.publish
    split
    · simp_all [Except.toBool]
    · split <;> simp_all [Except.toBool]
  simp only [Reply.accepted, Action.envelopes]
  induction es generalizing c with
  | nil => simp
  | cons e es ih =>
    have hrest := ih (c.publish e).1
    rw [isReady_publish] at hrest
    cases hready : c.isReady <;> simp_all [Channel.publishAll]

/-- Of whoever has caught up, an action leaves what it has published. -/
theorem Stands.act (h : c.Stands who t []) (a : Action) :
    (c.act a).1.Stands who (t.after who a) ((c.act a).2.accepted a) := by
  cases a with
  | subscribe name =>
    have hnone : ((c.act (.subscribe name)).2).accepted (.subscribe name) = [] := by
      unfold Channel.act
      dsimp only
      split <;> rfl
    rw [hnone, Standing.after]
    split
    · rename_i hself
      obtain ⟨rfl, hopen⟩ := hself
      rw [← h.connected, ← h.closed]
      exact stands_subscribe (h.closed.trans hopen) name
    · rename_i hother
      cases hclosed : t.closed with
      | true => exact h.subscribe_closed hclosed name
      | false => exact h.subscribe_other fun hname => hother ⟨hname, hclosed⟩
  | unsubscribe name => exact h.unsubscribe name
  | publish es =>
    have hall := h.publishAll es
    rw [List.nil_append] at hall
    show Stands _ _ _ (Reply.accepted (.published (c.publishAll es).2) (.publish es))
    rw [accepted_publishAll]
    exact hall
  | setConnected connected => exact h.setConnected connected
  | close => exact h.close

theorem Stands.drain (h : c.Stands who t es) : c.drain.1.Stands who t [] := by
  have hruns : c.drain.1.subscribers.filter (runs who) =
      (c.subscribers.filter (runs who)).map fun s => { s with next := c.sent } := by
    rw [Channel.drain, List.filter_map]
    rfl
  refine ⟨h.connected, h.closed, fun hl => ?_, fun hl => ?_⟩
  · obtain ⟨next, hplace, -⟩ := h.listening hl
    exact ⟨c.sent, by rw [hruns, hplace]; rfl, awaits_nil rfl⟩
  · rw [hruns, h.silent hl, List.map_nil]

theorem Stands.perform (h : c.Stands who t []) (a : Action) :
    (c.perform a).1.Stands who (t.after who a) [] := (h.act a).drain

theorem Stands.course (h : c.Stands who t []) (run : List Action) :
    (c.course run).Stands who (run.foldl (Standing.after who) t) [] := by
  induction run generalizing c t with
  | nil => exact h
  | cons a run ih => exact ih (h.perform a)

/-- An action is refused as a whole while the channel is disconnected or closed. -/
theorem Stands.accepted (h : c.Stands who t es) (a : Action) :
    (c.act a).2.accepted a = if t.connected && !t.closed then a.envelopes else [] := by
  have hready : c.isReady = (t.connected && !t.closed) := by
    rw [isReady, h.connected, h.closed]
  cases a with
  | publish es =>
    rw [← hready]
    exact c.accepted_publishAll es
  | subscribe name =>
    simp only [Action.envelopes, ite_self, Channel.act]
    split <;> rfl
  | unsubscribe _ | setConnected _ | close => simp [Action.envelopes, Channel.act, Reply.accepted]

end

section

variable {c : Channel} {who : String} {t : Standing} {es : List Envelope}

theorem subscriber_deliver (c : Channel) (s : Subscriber) : (c.deliver s).subscriber = s.name := by
  have hpayloads (d : Delivery) (texts : List String) :
      (d.payloads c.name texts).subscriber = d.subscriber := by
    induction texts generalizing d with
    | nil => rfl
    | cons text texts ih =>
      have hone : (d.payload c.name text).subscriber = d.subscriber := by
        unfold Delivery.payload
        split <;> rfl
      exact (ih _).trans hone
  unfold deliver
  split
  · exact hpayloads _ _
  · rfl

/-- Subscriptions that have ended receive nothing. -/
private theorem flatMap_filter_name {α : Type} {f : Subscriber → List α}
    (hf : ∀ s, s.active = false → f s = []) (subscribers : List Subscriber) (who : String) :
    (subscribers.filter fun s => s.name == who).flatMap f =
      (subscribers.filter (runs who)).flatMap f := by
  induction subscribers with
  | nil => rfl
  | cons s subscribers ih =>
    cases hname : s.name == who with
    | false => simp [runs, hname, ih]
    | true =>
      cases hactive : s.active with
      | false => simp [runs, hname, hactive, hf s hactive, ih]
      | true => simp [runs, hname, hactive, ih]

theorem received_drain (c : Channel) (who : String) :
    received who c.drain.2 =
      { subscriber := who
        envelopes := (c.subscribers.filter (runs who)).flatMap fun s => (c.deliver s).envelopes
        events := (c.subscribers.filter (runs who)).flatMap fun s => (c.deliver s).events } := by
  have hended (s : Subscriber) (hs : s.active = false) : c.deliver s = { subscriber := s.name } := by
    simp [deliver, hs]
  have hown : c.drain.2.filter (fun d => d.subscriber == who) =
      (c.subscribers.filter fun s => s.name == who).map c.deliver := by
    rw [Channel.drain, List.filter_map]
    simp only [Function.comp_def, subscriber_deliver]
  simp only [received, hown, List.flatMap_map]
  rw [flatMap_filter_name fun s hs => by rw [hended s hs],
    flatMap_filter_name fun s hs => by rw [hended s hs]]

theorem Stands.received_of_listening (h : c.Stands who t es) (hl : t.listening = true) :
    received who c.drain.2 =
      (receipts c.capacity (es.map Envelope.encode)).foldl (Delivery.receive c.name)
        { subscriber := who } := by
  obtain ⟨next, hplace, hawaits⟩ := h.listening hl
  have hdeliver := deliver_eq_receive hawaits rfl
  have hsubscriber : (c.deliver ⟨who, next, true⟩).subscriber = who := c.subscriber_deliver _
  rw [received_drain, hplace, List.flatMap_singleton, List.flatMap_singleton]
  generalize c.deliver ⟨who, next, true⟩ = delivery at hdeliver hsubscriber
  subst hsubscriber
  exact hdeliver

theorem Stands.received_of_silent (h : c.Stands who t es) (hl : t.listening = false) :
    received who c.drain.2 = { subscriber := who } := by
  rw [received_drain, h.silent hl]
  rfl

theorem Stands.catchesUp (h : c.Stands who t es) (hl : t.listening = true) :
    ∃ s ∈ c.subscribers, s.name = who ∧
      c.CatchesUp s (receipts c.capacity (es.map Envelope.encode)) := by
  obtain ⟨next, hplace, hawaits⟩ := h.listening hl
  have hmem : (⟨who, next, true⟩ : Subscriber) ∈ c.subscribers.filter (runs who) :=
    hplace ▸ List.mem_singleton_self _
  exact ⟨_, (List.mem_filter.mp hmem).1, rfl, hawaits.catchesUp⟩

/-- Nothing else about a channel makes a difference to what one receives. -/
theorem Stands.received_eq (h : c.Stands who t es) {d : Channel} (hd : d.Stands who t es)
    (hname : d.name = c.name) (hcapacity : d.capacity = c.capacity) :
    received who d.drain.2 = received who c.drain.2 := by
  cases hl : t.listening with
  | false => rw [h.received_of_silent hl, hd.received_of_silent hl]
  | true => rw [h.received_of_listening hl, hd.received_of_listening hl, hname, hcapacity]

end

theorem standing_append (who : String) (run : List Action) (a : Action) :
    standing who (run ++ [a]) = (standing who run).after who a := List.foldl_append

/-- What happens to other subscriptions makes no difference to a standing. -/
theorem standing_filter_concerns (who : String) (run : List Action) :
    standing who (run.filter (Action.concerns who)) = standing who run := by
  have hother (t : Standing) (a : Action) :
      (if a.concerns who = true then t.after who a else t) = t.after who a := by
    cases a with
    | subscribe name =>
      by_cases h : name = who <;> simp [Action.concerns, Standing.after, h]
    | unsubscribe name =>
      by_cases h : name = who <;> simp [Action.concerns, Standing.after, h]
    | publish _ | setConnected _ | close => rfl
  rw [standing, List.foldl_filter]
  exact congrArg (fun f => List.foldl f {} run) (funext fun t => funext fun a => hother t a)

theorem act_unchanged (c : Channel) (a : Action) :
    (c.act a).1.name = c.name ∧ (c.act a).1.capacity = c.capacity := by
  cases a with
  | publish es =>
    show (c.publishAll es).1.name = c.name ∧ (c.publishAll es).1.capacity = c.capacity
    induction es generalizing c with
    | nil => exact ⟨rfl, rfl⟩
    | cons e es ih =>
      have hone : (c.publish e).1.name = c.name ∧ (c.publish e).1.capacity = c.capacity := by
        unfold Channel.publish
        split
        · exact ⟨rfl, rfl⟩
        · split <;> exact ⟨rfl, rfl⟩
      obtain ⟨hname, hcapacity⟩ := ih (c.publish e).1
      exact ⟨hname.trans hone.1, hcapacity.trans hone.2⟩
  | subscribe name =>
    cases hclosed : c.closed with
    | true => simp [act, subscribe, hclosed]
    | false =>
      rw [act_subscribe hclosed]
      exact ⟨rfl, rfl⟩
  | unsubscribe _ | setConnected _ | close => exact ⟨rfl, rfl⟩

theorem course_unchanged (c : Channel) (run : List Action) :
    (c.course run).name = c.name ∧ (c.course run).capacity = c.capacity := by
  induction run generalizing c with
  | nil => exact ⟨rfl, rfl⟩
  | cons a run ih =>
    obtain ⟨hname, hcapacity⟩ := ih (c.perform a).1
    exact ⟨hname.trans (c.act_unchanged a).1, hcapacity.trans (c.act_unchanged a).2⟩

/-- After a run on a new channel, an action leaves the envelopes that it has published. -/
theorem Stands.of_course {c : Channel} {who : String} (hnew : c.Stands who {} [])
    (run : List Action) (a : Action) :
    ((c.course run).act a).1.Stands who (standing who (run ++ [a]))
      (((c.course run).act a).2.accepted a) := by
  rw [standing_append]
  exact (hnew.course run).act a

theorem Stands.accepted_course {c : Channel} {who : String} (hnew : c.Stands who {} [])
    (run : List Action) (a : Action) :
    ((c.course run).act a).2.accepted a =
      if (standing who run).connected && !(standing who run).closed then a.envelopes else [] :=
  (hnew.course run).accepted a

theorem act_course_unchanged (c : Channel) (run : List Action) (a : Action) :
    ((c.course run).act a).1.name = c.name ∧ ((c.course run).act a).1.capacity = c.capacity := by
  obtain ⟨hname, hcapacity⟩ := c.course_unchanged run
  obtain ⟨hname', hcapacity'⟩ := (c.course run).act_unchanged a
  exact ⟨hname'.trans hname, hcapacity'.trans hcapacity⟩

/-- A channel exists for every capacity but none and those beyond half of all addresses. After any
run of actions on it, whoever listens is given the envelopes that the next action publishes with
success, in their order, but for the oldest if they are more than the channel holds, and is first
told how many these are. It receives nothing else, whatever becomes of other subscriptions; whoever
does not listen receives nothing, and nothing is published while the channel is disconnected or
closed. -/
theorem delivered_exactly {capacity : Nat} (hpos : 0 < capacity)
    (hmax : capacity < 0x8000000000000000) (name : String) :
    ∃ c, withCapacity name capacity = some c ∧ ∀ run a who,
      let acted := ((c.course run).act a).1
      let round := ((c.course run).perform a).2
      let accepted := round.reply.accepted a
      let lost := accepted.length - capacity.nextPowerOfTwo
      let given := receipts capacity.nextPowerOfTwo (accepted.map Envelope.encode)
      ((standing who (run ++ [a])).listening = true →
        (∃ s ∈ acted.subscribers, s.name = who ∧ acted.CatchesUp s given) ∧
        received who round.deliveries = given.foldl (Delivery.receive name) { subscriber := who } ∧
        received who round.deliveries =
          { subscriber := who, envelopes := accepted.drop lost, events := lagged name lost }) ∧
      ((standing who (run ++ [a])).listening = false →
        received who round.deliveries = { subscriber := who }) ∧
      (accepted =
        if (standing who run).connected && !(standing who run).closed then a.envelopes else []) ∧
      ∀ others, others.filter (Action.concerns who) = run.filter (Action.concerns who) →
        received who ((c.course others).perform a).2.deliveries = received who round.deliveries := by
  let c : Channel := { name, capacity := capacity.nextPowerOfTwo }
  have hsome : withCapacity name capacity = some c := if_neg (by omega)
  have hnew (who : String) : c.Stands who {} [] :=
    ⟨rfl, rfl, fun hl => (by cases hl), fun _ => rfl⟩
  refine ⟨c, hsome, fun run a who => ?_⟩
  intro acted round accepted lost given
  have hacted : acted.Stands who (standing who (run ++ [a])) accepted := (hnew who).of_course run a
  obtain ⟨hname, hcapacity⟩ : acted.name = name ∧ acted.capacity = capacity.nextPowerOfTwo :=
    c.act_course_unchanged run a
  have haccepted := (hnew who).accepted_course run a
  refine ⟨fun hl => ?_, hacted.received_of_silent, haccepted, fun others ho => ?_⟩
  · have hcatches := hacted.catchesUp hl
    have hreceived := hacted.received_of_listening hl
    rw [hcapacity] at hcatches hreceived
    rw [hname] at hreceived
    refine ⟨hcatches, hreceived, ?_⟩
    rw [foldl_receive_encode] at hreceived
    exact hreceived
  · -- Both runs leave the same standing, and with it the same envelopes.
    have hsame : standing who others = standing who run := by
      rw [← standing_filter_concerns, ho, standing_filter_concerns]
    have hothers := (hnew who).of_course others a
    have haccepted' : ((c.course others).act a).2.accepted a = accepted := by
      rw [(hnew who).accepted_course others a, hsame]
      exact haccepted.symm
    rw [standing_append, hsame, ← standing_append, haccepted'] at hothers
    obtain ⟨hname', hcapacity'⟩ := c.act_course_unchanged others a
    exact hacted.received_eq hothers (hname'.trans hname.symm) (hcapacity'.trans hcapacity.symm)

/-- A channel for three holds four, so that of six the first two are lost. What was published while
the channel was disconnected is not among them. -/
theorem delivered_exactly_of_six :
    let es : List Envelope := ["1", "2", "3", "4", "5", "6"].map fun id => { id }
    let c : Channel := { name := "news", capacity := 4 }
    let run : List Action :=
      [.subscribe "a", .subscribe "b", .setConnected false, .publish [{ id := "0" }], .setConnected true]
    0 < 3 ∧ 3 < 0x8000000000000000 ∧ withCapacity "news" 3 = some c ∧
      received "a" ((c.course run).perform (.publish es)).2.deliveries =
        { subscriber := "a", envelopes := es.drop 2, events := lagged "news" 2 } := by
  intro es c run
  have hpos : 0 < 3 := by decide
  have hmax : 3 < 0x8000000000000000 := by decide
  have hsome : withCapacity "news" 3 = some c := by decide +kernel
  obtain ⟨c', hc', h⟩ := delivered_exactly hpos hmax "news"
  obtain rfl : c' = c := Option.some.inj (hc'.symm.trans hsome)
  obtain ⟨hlistening, -, haccepted, -⟩ := h run (.publish es) "a"
  have hall : ((c.course run).perform (.publish es)).2.reply.accepted (.publish es) = es :=
    haccepted.trans rfl
  have hcapacity : Nat.nextPowerOfTwo 3 = 4 := by decide +kernel
  have hreceived := (hlistening (by decide)).2.2
  rw [hall, hcapacity] at hreceived
  exact ⟨hpos, hmax, hsome, hreceived⟩

end Channel

end Roster
