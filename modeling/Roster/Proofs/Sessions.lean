import Roster.Proofs.Closing
/-! # A closed notifier stays closed, whatever happens to its sessions

A notifier that changes travel to through the master shares the pair of databases with others. To
close it is to ask the loops of its subscriptions to end; until a loop sees this, its session goes on
listening, and hands on what it is sent. Together with the channel inside the process: closing is
final for both notifiers. -/
namespace Roster

namespace Postgres

/-- A notifier in use: the pair, and what the sessions of its subscriptions have yet to hand on, by
the names of the subscriptions. -/
structure Station (σ : Type) where
  notifier : Notifier
  pair : Pair σ
  pending : List (String × String) := []

/-- What happens to a notifier. -/
inductive Move (σ : Type)
  | publish (e : Envelope)
  /-- Somebody else has the master send a payload to whoever listens. -/
  | announced (payload : String)
  | subscribe (name : String)
  | unsubscribe (name : String)
  /-- The session of a subscription hands on a payload that was sent to it. -/
  | heard (name payload : String)
  /-- The session of a subscription breaks. -/
  | broke (name : String) (cause : Chain)
  /-- The loop of a subscription whose session broke opens another one. -/
  | retried (name : String)
  | close
  /-- The loop of a subscription sees that the notifier was closed. -/
  | ended (name : String)
  /-- Others use the pair, or close it. -/
  | meanwhile (pair : Pair σ)

namespace Station

variable {σ : Type}

/-- All sessions that listen are sent a payload. -/
def announce (s : Station σ) (payload : String) : Station σ :=
  { s with pending := s.pending ++ s.notifier.heard.map fun l => (l.name, payload) }

/-- What was sent to the subscription under a name is gone with it. -/
def forget (s : Station σ) (name : String) : Station σ :=
  { s with pending := s.pending.filter fun p => p.1 != name }

/-- The subscription under a name whose loop runs. -/
def listener? (s : Station σ) (name : String) : Option Listener :=
  s.notifier.listeners.find? fun l => l.active && l.name == name

def move (peers : Peers σ) (s : Station σ) : Move σ → Station σ × Chronicle
  | .publish e =>
    let (n, p, result) := s.notifier.publish peers s.pair e
    let after := { s with notifier := n, pair := p }
    match result with
    | .ok _ => (after.announce e.encode, [.contact true, .accepted e.encode])
    | .error .disconnected => (after, [])
    | .error _ => (after, [.contact false])
  | .announced payload => (s.announce payload, [.announced payload])
  | .subscribe name =>
    let (n, p, result, _) := s.notifier.subscribe peers s.pair name
    let after := { s with notifier := n, pair := p }
    match result with
    | .ok _ => (after.forget name, [.subscribed name])
    | .error _ => (after, [])
  | .unsubscribe name =>
    let (n, p, _) := s.notifier.unsubscribe s.pair name
    ({ s with notifier := n, pair := p }.forget name, [.left name])
  | .heard name payload =>
    match s.listener? name with
    | some l =>
      if (name, payload) ∈ s.pending then
        let (n, delivery) := s.notifier.hear payload l
        ({ s with notifier := n, pending := s.pending.erase (name, payload) },
          .contact true :: delivery.incidents)
      else (s, [])
    | none => (s, [])
  | .broke name cause =>
    match s.listener? name with
    | some l => ({ s with notifier := (s.notifier.lose cause l).1 }, [.contact false])
    | none => (s, [])
  | .retried name =>
    match s.listener? name with
    | some l =>
      if l.listening then (s, [])
      else
        let (n, p, events) := s.notifier.retry peers s.pair l
        ({ s with notifier := n, pair := p }, events.map fun _ => .contact false)
    | none => (s, [])
  | .close => ({ s with notifier := s.notifier.close }, [.closed])
  | .ended name =>
    if s.notifier.closed then
      let (n, p) := s.notifier.finish s.pair fun l => l.name == name
      ({ s with notifier := n, pair := p }.forget name, [.left name])
    else (s, [])
  | .meanwhile pair => ({ s with pair }, [])

/-- A notifier in use is as its chronicle tells. -/
structure Lives (s : Station σ) (h : Chronicle) : Prop where
  closed : s.notifier.closed = true ↔ .closed ∈ h
  connected : s.notifier.connected = h.connected
  subscribed : ∀ l ∈ s.notifier.listeners, l.active = true → h.Subscribed l.name
  listening : ∀ l ∈ s.notifier.listeners, l.listening = true → l.active = true
  sent : ∀ p ∈ s.pending, h.Sent p.1 p.2
  lawful : h.Lawful Chronicle.Sent

section

variable {s : Station σ} {h : Chronicle}

theorem mem_of_listener? {name : String} {l : Listener} (hl : s.listener? name = some l) :
    l ∈ s.notifier.listeners ∧ l.active = true ∧ l.name = name := by
  refine ⟨List.mem_of_find?_eq_some hl, ?_⟩
  simpa using List.find?_some hl

theorem Lives.isReady (hs : s.Lives h) (hopen : .closed ∉ h)
    (hpool : s.pair.master.closed = false) : s.notifier.isReady s.pair = h.connected := by
  have hclosed : s.notifier.closed = false :=
    Bool.eq_false_iff.mpr fun hc => hopen (hs.closed.mp hc)
  simp [Notifier.isReady, hclosed, hpool, hs.connected]

/-- What happens to the transport alone leaves the subscriptions alone. -/
theorem Lives.contact (hs : s.Lives h) (connected : Bool) :
    Lives { s with notifier := { s.notifier with connected } } (h ++ [.contact connected]) where
  closed := by simpa using hs.closed
  connected := by
    rw [Chronicle.connected_append]
    rfl
  subscribed l hl ha := (hs.subscribed l hl ha).append (by simp [Incident.concerns])
  listening := hs.listening
  sent p hp := Chronicle.lasting_sent (hs.sent p hp) (by simp [Incident.concerns])
  lawful := hs.lawful.append_of_silent (by simp)

/-- Nothing depends on the pair. -/
theorem Lives.pair (hs : s.Lives h) (pair : Pair σ) : Lives { s with pair } h :=
  ⟨hs.closed, hs.connected, hs.subscribed, hs.listening, hs.sent, hs.lawful⟩

/-- A session that is opened or closed belongs to a loop that runs. -/
theorem Lives.withSession (hs : s.Lives h) {l : Listener} (hl : l.active = true)
    (listening : Bool) : Lives { s with notifier := s.notifier.withSession l listening } h := by
  have hof {m : Listener} (hm : m ∈ (s.notifier.withSession l listening).listeners) :
      ∃ m' ∈ s.notifier.listeners, m.name = m'.name ∧ m.active = m'.active ∧
        (m.listening = true → m'.active = true) := by
    obtain ⟨m', hm', rfl⟩ := List.mem_map.mp hm
    refine ⟨m', hm', ?_⟩
    split
    · rename_i heq
      exact ⟨rfl, rfl, fun _ => heq ▸ hl⟩
    · exact ⟨rfl, rfl, hs.listening m' hm'⟩
  refine ⟨hs.closed, hs.connected, fun m hm ha => ?_, fun m hm hlistens => ?_, hs.sent, hs.lawful⟩
  · obtain ⟨m', hm', hname, hactive, -⟩ := hof hm
    exact hname ▸ hs.subscribed m' hm' (hactive ▸ ha)
  · obtain ⟨m', -, -, hactive, hlistening⟩ := hof hm
    exact hactive ▸ hlistening hlistens

/-- A payload that the master takes is sent to the subscriptions whose sessions listen. -/
theorem Lives.announce (hs : s.Lives h) (payload : String) {taken : Incident}
    (htaken : taken.Takes payload)
    (hsent : ∀ {who}, h.Subscribed who → Chronicle.Sent (h ++ [taken]) who payload) :
    (s.announce payload).Lives (h ++ [taken]) := by
  have hsilent (who : String) : ∀ i ∈ [taken], i.concerns who = false := by
    rcases htaken with rfl | rfl <;> simp [Incident.concerns]
  refine ⟨?_, ?_, fun l hl ha => (hs.subscribed l hl ha).append (hsilent _), hs.listening, ?_,
    hs.lawful.append_of_silent (by rcases htaken with rfl | rfl <;> simp)⟩
  · rw [List.mem_append]
    rcases htaken with rfl | rfl <;> simpa [Station.announce] using hs.closed
  · rw [Chronicle.connected_append_of_silent
      (by rcases htaken with rfl | rfl <;> simp [Incident.contact?])]
    exact hs.connected
  · refine List.forall_mem_append.mpr ⟨fun p hp => ?_, fun p hp => ?_⟩
    · exact Chronicle.lasting_sent (hs.sent p hp) (hsilent _)
    · obtain ⟨l, hl, rfl⟩ := List.mem_map.mp hp
      obtain ⟨hl, hlistens⟩ := List.mem_filter.mp hl
      exact hsent (hs.subscribed l hl (hs.listening l hl hlistens))

theorem Lives.publish (hs : s.Lives h) (peers : Peers σ) (e : Envelope) :
    (s.move peers (.publish e)).1.Lives (h ++ (s.move peers (.publish e)).2) := by
  cases hclosed : s.notifier.closed with
  | true => simpa [move, Notifier.publish, hclosed] using hs
  | false =>
    have hopen : .closed ∉ h ++ [.contact true] := fun hm => by
      simp [hs.closed.mpr (by simpa using hm)] at hclosed
    cases hsent : (execute peers .master (.notify s.notifier.channel e.encode)).exec s.pair with
    | mk result after =>
      cases result with
      | error cause =>
        have hcontact := (hs.pair after).contact false
        simpa [move, Notifier.publish, hclosed, hsent, Except.toBool, Except.map, Except.mapError]
          using hcontact
      | ok answer =>
        have htaken := ((hs.pair after).contact true).announce e.encode (.inl rfl)
          fun hsubscribed => .inl (hsubscribed.owed hopen (.inl rfl))
        simpa [move, Notifier.publish, hclosed, hsent, Except.toBool, Except.map, Except.mapError]
          using htaken

/-- The subscriptions under other names stay when somebody comes or goes. -/
theorem Lives.others (hs : s.Lives h) {name : String} {i : Incident} {listeners : List Listener}
    (hi : i = .subscribed name ∨ i = .left name)
    (hthere : ∀ l ∈ listeners, l.active = true →
      l ∈ s.notifier.listeners ∧ l.name ≠ name ∨ Chronicle.Subscribed (h ++ [i]) l.name)
    (hlistening : ∀ l ∈ listeners, l.listening = true → l.active = true) (pair : Pair σ) :
    Lives
      { notifier := { s.notifier with listeners }
        pair
        pending := s.pending.filter fun p => p.1 != name } (h ++ [i]) := by
  have hother {who : String} (hwho : who ≠ name) : ∀ j ∈ [i], j.concerns who = false := by
    have hne : (name == who) = false := beq_eq_false_iff_ne.mpr hwho.symm
    rcases hi with rfl | rfl <;> simpa [Incident.concerns] using hne
  refine ⟨?_, ?_, fun l hl ha => ?_, hlistening, fun p hp => ?_, ?_⟩
  · rcases hi with rfl | rfl <;> simpa using hs.closed
  · have hsilent : ∀ j ∈ [i], j.contact? = none := by
      rcases hi with rfl | rfl <;> simp [Incident.contact?]
    rw [Chronicle.connected_append_of_silent hsilent]
    exact hs.connected
  · obtain ⟨hl, hname⟩ | hnew := hthere l hl ha
    · exact (hs.subscribed l hl ha).append (hother hname)
    · exact hnew
  · obtain ⟨hp, hname⟩ := List.mem_filter.mp hp
    exact Chronicle.lasting_sent (hs.sent p hp) (hother (bne_iff_ne.mp hname))
  · exact hs.lawful.append_of_silent (by rcases hi with rfl | rfl <;> simp)

theorem partition_name (listeners : List Listener) (name : String) :
    (listeners.partition (·.name == name)).2 = listeners.filter fun l => l.name != name := by
  rw [List.partition_eq_filter_filter]
  rfl

theorem Lives.unsubscribe (hs : s.Lives h) (peers : Peers σ) (name : String) :
    (s.move peers (.unsubscribe name)).1.Lives (h ++ [.left name]) := by
  simp only [move, Notifier.unsubscribe, forget, partition_name]
  refine hs.others (.inr rfl) (fun l hl _ => .inl ?_) (fun l hl => ?_) _
  · simpa using List.mem_filter.mp hl
  · exact hs.listening l (List.mem_filter.mp hl).1

theorem Lives.subscribe (hs : s.Lives h) (peers : Peers σ) (name : String) :
    (s.move peers (.subscribe name)).1.Lives (h ++ (s.move peers (.subscribe name)).2) := by
  cases hclosed : s.notifier.closed with
  | true => simpa [move, Notifier.subscribe, hclosed] using hs
  | false =>
    cases hheard : (Notifier.listen peers s.notifier.channel).exec s.pair with
    | mk result after =>
      cases result with
      | error cause => simpa [move, Notifier.subscribe, hclosed, hheard] using hs.pair after
      | ok _ =>
        have hopen : .closed ∉ h := fun hm => by simp [hs.closed.mpr hm] at hclosed
        have hne : ¬ s.notifier.closed = true := by simp [hclosed]
        simp only [move, Notifier.subscribe, if_neg hne, hheard, forget, partition_name]
        refine hs.others (.inl rfl) (List.forall_mem_append.mpr ⟨fun l hl _ => .inl ?_, ?_⟩)
          (List.forall_mem_append.mpr ⟨fun l hl => ?_, by simp⟩) _
        · simpa using List.mem_filter.mp hl
        · exact List.forall_mem_singleton.mpr fun _ => .inr (Chronicle.subscribed_append hopen name)
        · exact hs.listening l (List.mem_filter.mp hl).1

/-- A loop that ends leaves those of the other subscriptions alone. -/
theorem Lives.ended (hs : s.Lives h) (peers : Peers σ) (name : String) :
    (s.move peers (.ended name)).1.Lives (h ++ (s.move peers (.ended name)).2) := by
  by_cases hclosed : s.notifier.closed = true
  · simp only [move, Notifier.finish, if_pos hclosed, forget]
    refine hs.others (.inr rfl) (fun m hm => ?_) (fun m hm => ?_) _
    · obtain ⟨l, hl, rfl⟩ := List.mem_map.mp hm
      split
      · nofun
      · rename_i hname
        exact fun _ => .inl ⟨hl, by simpa using hname⟩
    · obtain ⟨l, hl, rfl⟩ := List.mem_map.mp hm
      split
      · nofun
      · exact hs.listening l hl
  · simpa [move, hclosed] using hs

/-- Subscriptions are given what was sent to them. -/
theorem Lives.handed (hs : s.Lives h) {more : Chronicle} (hm : h.Handed Chronicle.Sent more)
    {pending : List (String × String)} (hpending : ∀ p ∈ pending, p ∈ s.pending) :
    Lives { s with pending } (h ++ more) where
  closed := by rw [hs.closed, List.mem_append, or_iff_left hm.closed]
  connected := by
    rw [Chronicle.connected_append_of_silent hm.contact?]
    exact hs.connected
  subscribed l hl ha := (hs.subscribed l hl ha).append (hm.concerns l.name)
  listening := hs.listening
  sent p hp := Chronicle.lasting_sent (hs.sent p (hpending p hp)) (hm.concerns p.1)
  lawful := hm.lawful Chronicle.lasting_sent hs.lawful

/-- A session hands on what was sent to its subscription, and shows that the transport is there. -/
theorem Lives.heard (hs : s.Lives h) (peers : Peers σ) (name payload : String) :
    (s.move peers (.heard name payload)).1.Lives (h ++ (s.move peers (.heard name payload)).2) := by
  unfold Station.move
  dsimp only
  split
  · rename_i l hl
    split
    · rename_i hpending
      obtain ⟨-, -, rfl⟩ := mem_of_listener? hl
      have hthere := hs.contact true
      have hhanded : Chronicle.Handed Chronicle.Sent (h ++ [.contact true])
          (s.notifier.hear payload l).2.incidents := by
        refine Delivery.handed fun e he => ?_
        rcases Delivery.mem_envelopes_payload he with he | hdecode
        · cases he
        · rw [Notifier.hear, Delivery.subscriber_payload]
          exact ⟨payload, hdecode, hthere.sent _ hpending⟩
      have hgiven := hthere.handed hhanded fun p hp =>
        List.mem_of_mem_erase (b := (l.name, payload)) hp
      rw [List.append_assoc] at hgiven
      exact hgiven
    · simpa using hs
  · simpa using hs

theorem Lives.broke (hs : s.Lives h) (peers : Peers σ) (name : String) (cause : Chain) :
    (s.move peers (.broke name cause)).1.Lives (h ++ (s.move peers (.broke name cause)).2) := by
  unfold Station.move
  dsimp only
  split
  · rename_i l hl
    obtain ⟨-, hactive, -⟩ := mem_of_listener? hl
    exact (hs.withSession hactive false).contact false
  · simpa using hs

theorem Lives.retried (hs : s.Lives h) (peers : Peers σ) (name : String) :
    (s.move peers (.retried name)).1.Lives (h ++ (s.move peers (.retried name)).2) := by
  unfold Station.move
  dsimp only
  split
  · rename_i l hl
    obtain ⟨-, hactive, -⟩ := mem_of_listener? hl
    split
    · simpa using hs
    · unfold Notifier.retry
      split
      · rename_i after _
        simpa using (hs.pair after).withSession hactive true
      · rename_i after _
        exact ((hs.pair after).withSession hactive false).contact false
  · simpa using hs

theorem Lives.close (hs : s.Lives h) (peers : Peers σ) :
    (s.move peers .close).1.Lives (h ++ [.closed]) where
  closed := by simp [Station.move, Notifier.close]
  connected := by
    rw [Chronicle.connected_append_of_silent (by simp [Incident.contact?])]
    exact hs.connected
  subscribed l hl ha := (hs.subscribed l hl ha).append (by simp [Incident.concerns])
  listening := hs.listening
  sent p hp := Chronicle.lasting_sent (hs.sent p hp) (by simp [Incident.concerns])
  lawful := hs.lawful.append_of_silent (by simp)

theorem Lives.move (hs : s.Lives h) (peers : Peers σ) (m : Move σ) :
    (s.move peers m).1.Lives (h ++ (s.move peers m).2) := by
  cases m with
  | publish e => exact hs.publish peers e
  | announced payload =>
    exact hs.announce payload (.inr rfl) fun hsubscribed => hsubscribed.sent payload
  | subscribe name => exact hs.subscribe peers name
  | unsubscribe name => exact hs.unsubscribe peers name
  | heard name payload => exact hs.heard peers name payload
  | broke name cause => exact hs.broke peers name cause
  | retried name => exact hs.retried peers name
  | close => exact hs.close peers
  | ended name => exact hs.ended peers name
  | meanwhile pair => simpa [Station.move] using hs.pair pair

end

end Station

section

variable {σ : Type}

end

end Postgres

end Roster
