import Roster.Proofs.Passwords
import Roster.Proofs.Transport
/-! # Callers do not see the notifier

Two runs with the same calls differ in what happens to the notifier: it is disconnected, connected
again or closed, subscribers come, go and fall behind, and changes are announced at other times, in
vain or not at all. Callers learn the same, and the servers are left alike but for their
channels. -/
namespace Roster

namespace Server

/-- The server but for its channel. -/
def unheard (s : Server) : Server := { s with channel := {} }

/-- Something happens to the notifier. -/
def Action.notifies : Action → Bool
  | .channel _ => true
  | _ => false

section

variable {s t : Server} {a : Action}

theorem after_of_notifies (ha : a.notifies = true) : (s.after a).unheard = s.unheard := by
  cases a with
  | channel => rfl
  | _ => cases ha

theorem after_unheard (s : Server) (a : Action) :
    (s.after a).unheard = (s.unheard.after a).unheard := by
  cases a <;> rfl

theorem answered?_unheard (s : Server) (a : Action) : s.answered? a = s.unheard.answered? a := by
  cases a <;> rfl

theorem course_eq_of_unheard_eq (h : s.unheard = t.unheard) (run : List Action) :
    s.history run = t.history run ∧ (s.course run).unheard = (t.course run).unheard := by
  refine course_induction₂ (R := fun s t => s.unheard = t.unheard) (fun {s t} a h => ⟨?_, ?_⟩) h run
  · rw [answered?_unheard, h, ← answered?_unheard]
  · rw [after_unheard, h, ← after_unheard]

/-- What happens to the notifier can be left out of a run. -/
theorem course_filter (s : Server) (run : List Action) :
    s.history run = s.history (run.filter (!·.notifies)) ∧
      (s.course run).unheard = (s.course (run.filter (!·.notifies))).unheard := by
  induction run generalizing s with
  | nil => exact ⟨rfl, rfl⟩
  | cons a run ih =>
    cases ha : a.notifies with
    | false =>
      obtain ⟨hhistory, hcourse⟩ := ih (s.after a)
      rw [List.filter_cons_of_pos (by simp [ha])]
      exact ⟨by rw [history, history, hhistory], hcourse⟩
    | true =>
      obtain ⟨hhistory, hcourse⟩ := course_eq_of_unheard_eq (after_of_notifies ha) run
      obtain ⟨hhistory', hcourse'⟩ := ih s
      have hnone : s.answered? a = none := by
        cases a with
        | channel => rfl
        | _ => cases ha
      rw [List.filter_cons_of_neg (by simp [ha])]
      refine ⟨?_, hcourse.trans hcourse'⟩
      rw [history, hnone, Option.toList_none, List.nil_append, hhistory, hhistory']

end

end Server

namespace Desk

def Move.notifies : Move → Bool
  | .act a => a.notifies
  | .announce _ | .deliver => true

/-- What callers see of some moves, each with the store after it. -/
def witnessed (d : Desk) : List Move → List (Shown × MemoryStore)
  | [] => []
  | m :: rest =>
    (if m.notifies then [] else [(d.shown m, (d.after m).server.store)]) ++
      (d.after m).witnessed rest

section

variable {d d' : Desk} {m : Move}

theorem after_of_notifies (hm : m.notifies = true) :
    (d.after m).server.unheard = d.server.unheard := by
  cases m with
  | act a =>
    cases a with
    | channel => rfl
    | _ => cases hm
  | announce i =>
    unfold after
    dsimp only
    split <;> rfl
  | deliver => rfl

theorem server_after_act (d : Desk) (a : Server.Action) :
    (d.after (.act a)).server.unheard = (d.server.unheard.after a).unheard := by
  cases a <;> rfl

theorem shown_act {a : Server.Action} (ha : a.notifies = false) :
    d.shown (.act a) = (opened d.server.unheard).shown (.act a) := by
  cases a with
  | channel => cases ha
  | _ => rfl

theorem step_eq (h : d.server.unheard = d'.server.unheard) (m : Move) :
    (m.notifies = false → d.shown m = d'.shown m) ∧
      (d.after m).server.unheard = (d'.after m).server.unheard := by
  cases hm : m.notifies with
  | true =>
    refine ⟨nofun, ?_⟩
    rw [after_of_notifies hm, h, after_of_notifies hm]
  | false =>
    cases m with
    | act a =>
      refine ⟨fun _ => ?_, ?_⟩
      · rw [shown_act hm, h, ← shown_act hm]
      · rw [server_after_act, h, ← server_after_act]
    | announce | deliver => cases hm

theorem store_eq (h : d.server.unheard = d'.server.unheard) : d.server.store = d'.server.store := by
  have hstore := congrArg Server.store h
  exact hstore

theorem witnessed_eq (h : d.server.unheard = d'.server.unheard) (moves : List Move) :
    d.witnessed moves = d'.witnessed moves ∧
      (d.course moves).server.unheard = (d'.course moves).server.unheard := by
  induction moves generalizing d d' with
  | nil => exact ⟨rfl, h⟩
  | cons m moves ih =>
    obtain ⟨hshown, hafter⟩ := step_eq h m
    obtain ⟨hrest, hcourse⟩ := ih hafter
    refine ⟨?_, hcourse⟩
    rw [witnessed, witnessed, hrest, store_eq hafter]
    cases hm : m.notifies with
    | true => rfl
    | false => rw [hshown hm]

/-- What happens to the notifier can be left out. -/
theorem witnessed_filter (d : Desk) (moves : List Move) :
    d.witnessed moves = d.witnessed (moves.filter (!·.notifies)) ∧
      (d.course moves).server.unheard = (d.course (moves.filter (!·.notifies))).server.unheard := by
  induction moves generalizing d with
  | nil => exact ⟨rfl, rfl⟩
  | cons m moves ih =>
    cases hm : m.notifies with
    | false =>
      obtain ⟨hwitnessed, hcourse⟩ := ih (d.after m)
      rw [List.filter_cons_of_pos (by simp [hm])]
      exact ⟨by rw [witnessed, witnessed, hwitnessed], hcourse⟩
    | true =>
      obtain ⟨hwitnessed, hcourse⟩ := witnessed_eq (after_of_notifies hm) moves
      obtain ⟨hwitnessed', hcourse'⟩ := ih d
      rw [List.filter_cons_of_neg (by simp [hm])]
      refine ⟨?_, hcourse.trans hcourse'⟩
      rw [witnessed, hm, if_pos rfl, List.nil_append, hwitnessed, hwitnessed']

end

end Desk

/-- A publish that fails leaves the channel as it was, and logs nothing itself. -/
theorem Channel.publish_of_error {c : Channel} {e : Envelope} {failure : NotifyError}
    (h : (c.publish e).2.result = .error failure) :
    (c.publish e).1 = c ∧ (c.publish e).2.events = [] := by
  unfold publish at h ⊢
  split at h
  · rename_i hready
    rw [if_pos hready]
    exact ⟨rfl, rfl⟩
  · split at h <;> cases h

/-- What is logged of a change that could not be announced. -/
def Server.lostAnnouncement (channel id : String) (failure : NotifyError) : Event :=
  { level := .error, message := "change notification failed"
    fields := [("channel", channel), ("id", id), ("error", failure.message)] }

theorem Desk.after_announce_of_error {d : Desk} {i : Nat} {n : Announcement} {failure : NotifyError}
    (hn : d.pending[i]? = some n)
    (h : (d.server.channel.publish n.envelope).2.result = .error failure) :
    (d.after (.announce i)).server = d.server ∧
      d.shown (.announce i) =
        { background :=
            [Server.lostAnnouncement d.server.channel.name n.envelope.id failure] } := by
  obtain ⟨hchannel, hevents⟩ := Channel.publish_of_error h
  have hannounce : Server.announce d.server.channel n.envelope = (d.server.channel,
      [Server.lostAnnouncement d.server.channel.name n.envelope.id failure]) := by
    unfold Server.announce
    dsimp only
    rw [hchannel, hevents, h]
    rfl
  simp only [after, shown, hn, hannounce, and_self]

namespace Server

theorem respond_unheard {s : Server} {r : Http.Request} (hr : r.demand ≠ .ok .ready) (draw : Draw)
    (freshRequestId : String) :
    (s.respond draw freshRequestId r).value = (s.unheard.respond draw freshRequestId r).value ∧
      (s.respond draw freshRequestId r).server.unheard =
        (s.unheard.respond draw freshRequestId r).server.unheard := by
  have hanswer : (s.answer draw r).value = (s.unheard.answer draw r).value ∧
      (s.answer draw r).server.unheard = (s.unheard.answer draw r).server.unheard := by
    have hpatience : s.unheard.patience = s.patience := rfl
    simp only [answer, hpatience]
    split
    · exact ⟨rfl, rfl⟩
    · cases hdemand : r.demand with
      | error => exact ⟨rfl, rfl⟩
      | ok demand =>
        dsimp only
        split
        · exact ⟨rfl, rfl⟩
        · cases demand with
          | ready => exact absurd hdemand hr
          | live | version | call => exact ⟨rfl, rfl⟩
  refine ⟨?_, hanswer.2⟩
  simp only [respond, hanswer.1]
  rfl

/-- The notifier cannot affect callers. Two runs with the same calls, switches of the store, fresh
identifiers and times show callers the same at every step, and leave the same rows, whatever happens
to the notifier, whether changes are announced at once or at any later time. A change that cannot be
announced leaves one line in the log, and nothing else. -/
theorem notifier_unseen {s t : Server} (h : s.unheard = t.unheard) :
    (∀ moves moves', moves.filter (!·.notifies) = moves'.filter (!·.notifies) →
      (Desk.opened s).witnessed moves = (Desk.opened t).witnessed moves' ∧
        ((Desk.opened s).course moves).server.unheard =
          ((Desk.opened t).course moves').server.unheard) ∧
    (∀ run run', run.filter (!·.notifies) = run'.filter (!·.notifies) →
      s.history run = t.history run' ∧ (s.course run).unheard = (t.course run').unheard) ∧
    (∀ {r}, r.demand ≠ .ok .ready → ∀ draw freshRequestId,
      (s.respond draw freshRequestId r).value = (t.respond draw freshRequestId r).value ∧
        (s.respond draw freshRequestId r).server.unheard =
          (t.respond draw freshRequestId r).server.unheard) ∧
    (∀ (d : Desk) {m}, m.notifies = true → (d.after m).server.unheard = d.server.unheard) ∧
    ∀ (d : Desk) {i n failure}, d.pending[i]? = some n →
      (d.server.channel.publish n.envelope).2.result = .error failure →
        (d.after (.announce i)).server = d.server ∧
          d.shown (.announce i) =
            { background := [lostAnnouncement d.server.channel.name n.envelope.id failure] } := by
  refine ⟨fun moves moves' hm => ?_, fun run run' hr => ?_, fun hr draw freshRequestId => ?_,
    fun d m hm => Desk.after_of_notifies hm,
    fun d _ _ _ hn hf => Desk.after_announce_of_error hn hf⟩
  · obtain ⟨hseen, hcourse⟩ := (Desk.opened s).witnessed_filter moves
    obtain ⟨hseen', hcourse'⟩ := (Desk.opened t).witnessed_filter moves'
    have hopened : (Desk.opened s).server.unheard = (Desk.opened t).server.unheard := h
    obtain ⟨hboth, hend⟩ := Desk.witnessed_eq hopened (moves'.filter (!·.notifies))
    rw [hm] at hseen hcourse
    exact ⟨hseen.trans (hboth.trans hseen'.symm), hcourse.trans (hend.trans hcourse'.symm)⟩
  · obtain ⟨hhistory, hcourse⟩ := s.course_filter run
    obtain ⟨hhistory', hcourse'⟩ := t.course_filter run'
    obtain ⟨hboth, hend⟩ := course_eq_of_unheard_eq h (run'.filter (!·.notifies))
    rw [hr] at hhistory hcourse
    exact ⟨hhistory.trans (hboth.trans hhistory'.symm), hcourse.trans (hend.trans hcourse'.symm)⟩
  · obtain ⟨hvalue, hserver⟩ := respond_unheard (s := s) hr draw freshRequestId
    obtain ⟨hvalue', hserver'⟩ := respond_unheard (s := t) hr draw freshRequestId
    exact ⟨by rw [hvalue, h, hvalue'], by rw [hserver, h, hserver']⟩

/-- An account is changed, heard by someone in one run and by nobody in the other. -/
theorem notifier_unseen_of_closed_channel :
    let closed : Server := { watched with channel := { closed := true } }
    let call (request : Request) : Desk.Move := .act (.call { draw := ⟨"a", .epoch⟩, request })
    let change := call (.update { id := "a", profile := { nickname := "Ann" } })
    let moves := [call (.create {}), change, .announce 0, .deliver, call (.list {})]
    let moves' := [call (.create {}), change, call (.list {}),
      .act (.channel (.setConnected false)), .announce 0]
    let d := (Desk.opened closed).course (moves'.take 4)
    watched.unheard = closed.unheard ∧
      moves.filter (!·.notifies) = moves'.filter (!·.notifies) ∧
      (Desk.opened watched).witnessed moves = (Desk.opened closed).witnessed moves' ∧
      ∃ n, d.pending[0]? = some n ∧
        (d.server.channel.publish n.envelope).2.result = .error .disconnected ∧
        d.shown (.announce 0) =
          { background := [lostAnnouncement defaultChannel "a" .disconnected] } := by
  intro closed call change moves moves' d
  have hsame : watched.unheard = closed.unheard := rfl
  have hfilter : moves.filter (!·.notifies) = moves'.filter (!·.notifies) := rfl
  obtain ⟨hseen, -, -, -, hlost⟩ := notifier_unseen hsame
  have hids : d.pending.map (·.envelope.id) = ["a"] := by decide +kernel
  obtain ⟨n, hn, hid⟩ := List.map_eq_singleton_iff.mp hids
  have hname : d.server.channel.name = defaultChannel := by decide +kernel
  have hready : d.server.channel.isReady = false := by decide +kernel
  have hpending : d.pending[0]? = some n := by rw [hn]; rfl
  have hfails : (d.server.channel.publish n.envelope).2.result = .error .disconnected := by
    simp [Channel.publish, hready]
  have hshown := (hlost d hpending hfails).2
  rw [hname, hid] at hshown
  exact ⟨hsame, hfilter, (hseen moves moves' hfilter).1, n, hpending, hfails, hshown⟩

end Server

end Roster
