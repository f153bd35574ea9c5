import Roster.Proofs.Runs
/-! # The veil over passwords

A profile is veiled by taking its password away, and so is all that holds profiles. Whatever a
repository does, it does in the same way behind the veil. Requests that differ in passwords alone
come to the same behind it, in each layer of a service. -/
namespace Roster

def Profile.veiled (p : Profile) : Profile := { p with password := "" }

def User.veiled (u : User) : User := { u with profile := u.profile.veiled }

namespace Profile

theorem get_veiled (p : Profile) (a : Attribute) :
    p.veiled.get a = if a = .password then "" else p.get a := by
  cases a <;> rfl

theorem veiled_overwrite (p changes : Profile) :
    (p.overwrite changes).veiled = p.veiled.overwrite changes.veiled := by
  ext a
  by_cases ha : a = .password
  · simp [get_veiled, get_overwrite, ha]
  · simp [get_veiled, get_overwrite, ha]

theorem get_eq_of_veiled_eq {p q : Profile} (h : p.veiled = q.veiled) {a : Attribute}
    (ha : a ≠ .password) : p.get a = q.get a := by
  have hget := congrArg (·.get a) h
  simpa only [get_veiled, if_neg ha] using hget

theorem eq_with_password {p q : Profile} (h : p.veiled = q.veiled) :
    q = { p with password := q.password } := by
  obtain ⟨hfirst, hlast, hnickname, -, hemail, hcountry⟩ := Profile.mk.inj h
  cases q
  simp_all

/-- Whether a password is supplied can be told, which one cannot. -/
theorem map_fst_supplied_eq {p q : Profile} (h : p.veiled = q.veiled)
    (hs : p.password = "" ↔ q.password = "") :
    p.supplied.map (·.1) = q.supplied.map (·.1) := by
  have hkept (a : Attribute) : (p.get a != "") = (q.get a != "") := by
    by_cases ha : a = .password
    · subst ha
      rw [Bool.eq_iff_iff, bne_iff_ne, bne_iff_ne]
      exact not_congr hs
    · rw [get_eq_of_veiled_eq h ha]
  simp only [supplied, List.filter_map, List.map_map, Function.comp_def, hkept]

end Profile

namespace User

theorem veiled_apply (u : User) (changes : Profile) (now : Time.Timestamp) :
    (u.apply changes now).veiled = u.veiled.apply changes.veiled now := by
  simp only [apply, veiled, Profile.veiled_overwrite]

theorem value_veiled (k : FilterKey) (u : User) : k.value u.veiled = k.value u := by
  cases k <;> rfl

end User

theorem UserView.ofUser_veiled (u : User) : ofUser u.veiled = ofUser u := rfl

theorem Conditions.holds_veiled (c : Conditions) (u : User) : c.holds u.veiled = c.holds u := by
  simp only [holds, User.value_veiled]

theorem changeRow_veiled (id : String) (changes : Profile) (now : Time.Timestamp)
    (rows : List User) :
    changeRow id (fun u => u.apply changes.veiled now) (rows.map (·.veiled)) =
      (changeRow id (fun u => u.apply changes now) rows).map (List.map (·.veiled)) := by
  induction rows with
  | nil => rfl
  | cons u rows ih =>
    have hid : u.veiled.id = u.id := rfl
    by_cases hu : u.id = id
    · simp [changeRow, hid, hu, User.veiled_apply]
    · simp [changeRow, hid, hu, ih, Option.map_map, Function.comp_def]

def MemoryStore.veiled (s : MemoryStore) : MemoryStore := { s with rows := s.rows.map (·.veiled) }

def Command.veiled : Command → Command
  | create profile => create profile.veiled
  | update id changes => update id changes.veiled
  | c => c

def Reply.veiled : Reply → Reply
  | users accounts => users (accounts.map (·.veiled))
  | r => r

def Attempt.veiled (a : Attempt) : Attempt := { a with command := a.command.veiled }

def Run.veiled (r : Run MemoryStore) : Run MemoryStore :=
  { r with result := r.result.map (·.map Reply.veiled), state := r.state.veiled }

@[simp] theorem Command.name_veiled (c : Command) : c.veiled.name = c.name := by cases c <;> rfl

theorem Response.ofReply_veiled (r : Reply) : ofReply r.veiled = ofReply r := by
  cases r with
  | users accounts =>
    simp only [Reply.veiled, ofReply, List.map_map, Function.comp_def, UserView.ofUser_veiled]
  | _ => rfl

theorem MemoryStore.perform_veiled (rows : List User) (draw : Draw) (command : Command) :
    perform (rows.map (·.veiled)) draw command.veiled =
      (perform rows draw command).map fun r => (r.1.veiled, r.2.map (·.veiled)) := by
  cases command with
  | create profile => simp [perform, Command.veiled, Except.map, Reply.veiled, User.veiled]
  | update id changes =>
    simp only [perform, Command.veiled, changeRow_veiled]
    cases changeRow id (fun u => u.apply changes draw.now) rows <;> rfl
  | delete id =>
    have hkept : (rows.map (·.veiled)).filter (fun u => u.id != id) =
        (rows.filter fun u => u.id != id).map (·.veiled) := List.filter_map
    simp only [perform, Command.veiled, hkept, List.length_map]
    split <;> rfl
  | get conditions page =>
    have hkept : (rows.map (·.veiled)).filter conditions.holds =
        (rows.filter conditions.holds).map (·.veiled) := by
      rw [List.filter_map]
      simp only [Function.comp_def, conditions.holds_veiled]
    simp only [perform, Command.veiled, hkept, Page.slice, ← List.map_drop, ← List.map_take]
    rfl

namespace Repository

/-- The repository does behind the veil what it does before it. -/
def Discreet (r : Repository MemoryStore) : Prop := ∀ a s, r a.veiled s.veiled = (r a s).veiled

theorem store_discreet : Discreet MemoryStore.repository := by
  intro a s
  have hcommand : a.veiled.command = a.command.veiled := rfl
  have hname : a.veiled.command.name = a.command.name := a.command.name_veiled
  have hperform := MemoryStore.perform_veiled s.rows a.draw a.command
  cases hawaited : a.awaited with
  | false => simp [MemoryStore.repository, Attempt.veiled, hawaited, Run.veiled]
  | true =>
    cases hfailing : s.failing with
    | true =>
      simp [MemoryStore.repository, Attempt.veiled, MemoryStore.veiled, hawaited, hfailing,
        Run.veiled, Except.map]
    | false =>
      simp only [MemoryStore.repository, Attempt.veiled, MemoryStore.veiled, hawaited, hfailing,
        hperform, Bool.not_true, Bool.false_eq_true, if_false]
      cases MemoryStore.perform s.rows a.draw a.command with
      | error e => simp [Except.map, Run.veiled, MemoryStore.veiled, hfailing]
      | ok r => simp [Except.map, Run.veiled, MemoryStore.veiled]

theorem outcome_veiled (r : Except RepositoryError Reply) :
    outcome (r.map Reply.veiled) = outcome r := by
  cases r with
  | ok _ => rfl
  | error e => cases e <;> rfl

theorem report?_veiled (r : Except RepositoryError Reply) :
    report? (r.map Reply.veiled) = report? r := by
  cases r with
  | ok _ => rfl
  | error e => cases e <;> rfl

section

variable {r : Repository MemoryStore} (h : r.Discreet)
include h

theorem traced_discreet : r.traced.Discreet := by
  intro a s
  have hname : a.veiled.command.name = a.command.name := a.command.name_veiled
  simp only [traced, h a s, hname]
  simp [Run.veiled, Option.toList_map, Function.comp_def, outcome_veiled]

theorem reported_discreet (reporter : Reporter) : (r.reported reporter).Discreet := by
  intro a s
  have hreport (x : Option (Except RepositoryError Reply)) :
      (x.map fun r => r.map Reply.veiled).bind report? = x.bind report? := by
    cases x with
    | none => rfl
    | some r => exact report?_veiled r
  simp only [reported, h a s, Run.veiled, hreport]

end

end Repository

/-- The requests differ in passwords at most: in both or in neither the password is confirmed, and a
change supplies one in both or in neither. -/
inductive Request.Indistinct : Request → Request → Prop
  | create {r r' : CreateUser} (hprofile : r.profile.veiled = r'.profile.veiled)
      (hconfirmed : r.profile.password = r.passwordConfirm ↔
        r'.profile.password = r'.passwordConfirm) : Indistinct (.create r) (.create r')
  | update {r : UpdateUser} {profile : Profile} (hprofile : r.profile.veiled = profile.veiled)
      (hsupplied : r.profile.password = "" ↔ profile.password = "") :
      Indistinct (.update r) (.update { r with profile })
  | same (r : Request) : Indistinct r r

namespace Request.Indistinct

variable {r r' : Request} (h : r.Indistinct r')
include h

theorem name : r.name = r'.name := by
  cases h <;> rfl

theorem observed : r.observed = r'.observed := by
  cases h with
  | @create r r' hprofile =>
    simp only [Request.observed, CreateUser.observed]
    rw [Profile.eq_with_password hprofile]
  | @update r profile hprofile hsupplied =>
    have hchanged : r.changedColumns = UpdateUser.changedColumns { r with profile } := by
      have hcolumns (p : Profile) :
          p.supplied.map (fun e => e.1.column) = (p.supplied.map (·.1)).map (·.column) := by
        rw [List.map_map]
        rfl
      simp only [UpdateUser.changedColumns, hcolumns, Profile.map_fst_supplied_eq hprofile hsupplied]
    simp only [Request.observed, UpdateUser.observed, hchanged]
  | same => rfl

theorem announcement : r.announcement = r'.announcement := by
  cases h with
  | create => rfl
  | @update r profile hprofile =>
    simp only [Request.announcement, UpdateUser.envelope]
    rw [Profile.eq_with_password hprofile]
  | same => rfl

theorem accept : r.accept = r'.accept := by
  have hfits : r.fits = r'.fits := by
    funext response
    cases h <;> cases response <;> rfl
  funext result
  cases result with
  | error _ => rfl
  | ok response => simp only [Request.accept, hfits, h.name]

theorem command (maxLimit : UInt32) :
    (r.command maxLimit).map Command.veiled = (r'.command maxLimit).map Command.veiled := by
  cases h with
  | @create r r' hprofile hconfirmed =>
    by_cases hc : r.profile.password = r.passwordConfirm
    · simp [Request.command, CreateUser.validate, hc, hconfirmed.mp hc, Except.map, Command.veiled,
        hprofile]
    · simp [Request.command, CreateUser.validate, hc, mt hconfirmed.mpr hc, Except.map]
  | @update r profile hprofile =>
    by_cases hid : r.id = ""
    · simp [Request.command, UpdateUser.validate, hid, Except.map]
    · simp [Request.command, UpdateUser.validate, hid, Except.map, Command.veiled, hprofile]
  | same => rfl

end Request.Indistinct

/-- The operations differ in passwords at most. -/
structure Operation.Indistinct (op op' : Operation) : Prop where
  context : op.context = op'.context
  request : op.request.Indistinct op'.request

namespace Operation.Indistinct

variable {op op' : Operation} (h : op.Indistinct op')
include h

theorem name : op.name = op'.name := h.request.name

theorem observed : op.observed = op'.observed := h.request.observed

end Operation.Indistinct

def Call.veiled (c : Call MemoryStore) : Call MemoryStore := { c with state := c.state.veiled }

namespace Service

/-- Behind the veil, operations that differ in passwords at most come to the same. -/
def Discreet (f : Service MemoryStore) : Prop :=
  ∀ draw {op op' s s'}, op.Indistinct op' → s.veiled = s'.veiled →
    (f draw op s).veiled = (f draw op' s').veiled

theorem outcome_veiled (operation : String) (ending : Ending)
    (result : Option (Except RepositoryError Reply)) :
    outcome operation ending (result.map (·.map Reply.veiled)) = outcome operation ending result := by
  rcases result with _ | e | reply
  · rfl
  · cases ending <;> rfl
  · cases ending with
    | done => simp only [Option.map_some, Except.map, outcome, Response.ofReply_veiled]
    | _ => rfl

/-- What one attempt comes to decides what the call comes to, and behind the veil they are alike. -/
theorem users_discreet {repository : Repository MemoryStore} (h : repository.Discreet)
    (maxLimit : UInt32) (latency : Nat) : Discreet (users maxLimit latency repository) := by
  intro draw op op' s s' hop hs
  have hcommand := hop.request.command maxLimit
  cases hc : op.request.command maxLimit with
  | error reason =>
    cases hc' : op'.request.command maxLimit with
    | ok _ => simp [hc, hc', Except.map] at hcommand
    | error reason' =>
      have hreason : reason = reason' := by simpa [hc, hc', Except.map] using hcommand
      simp only [users, hc, hc', Call.veiled, hs, hreason]
  | ok command =>
    cases hc' : op'.request.command maxLimit with
    | error _ => simp [hc, hc', Except.map] at hcommand
    | ok command' =>
      have hveiled : command.veiled = command'.veiled := by
        simpa [hc, hc', Except.map] using hcommand
      let awaited : Bool := (op'.context.settle latency).2 = .done
      have hrun : (repository ⟨draw, command, awaited⟩ s).veiled =
          (repository ⟨draw, command', awaited⟩ s').veiled := by
        have hattempt : Attempt.veiled ⟨draw, command, awaited⟩ =
            Attempt.veiled ⟨draw, command', awaited⟩ := by
          simp only [Attempt.veiled, hveiled]
        rw [← h, ← h, hattempt, hs]
      have hresult (ending : Ending) :
          outcome op'.name ending (repository ⟨draw, command, awaited⟩ s).result =
            outcome op'.name ending (repository ⟨draw, command', awaited⟩ s').result := by
        rw [← outcome_veiled, ← outcome_veiled _ _ (repository _ s').result]
        exact congrArg _ (congrArg Run.result hrun)
      have hnotes := congrArg Run.notes hrun
      have hstate := congrArg Run.state hrun
      dsimp only [Run.veiled] at hnotes hstate
      dsimp only [awaited] at hresult hnotes hstate
      cases hbegins : op'.context.begins with
      | false =>
        simp only [users, hc, hc', hop.context, hop.name, hop.request.announcement, hbegins,
          Bool.false_eq_true, if_false, Call.veiled, hs]
      | true =>
        simp only [users, hc, hc', hop.context, hop.name, hop.request.announcement, hbegins,
          if_true, Call.veiled, hresult, hnotes, hstate]

section

variable {inner : Service MemoryStore} (h : Discreet inner)
include h

theorem counted_discreet : Discreet (counted inner) := by
  intro draw op op' s s' hop hs
  obtain ⟨hresult, hnotes, hstate, helapsed, hannounced⟩ := Call.mk.inj (h draw hop hs)
  simp only [counted, Call.veiled, hresult, hnotes, hstate, helapsed, hannounced, hop.name]

theorem logged_discreet : Discreet (logged inner) := by
  intro draw op op' s s' hop hs
  obtain ⟨hresult, hnotes, hstate, helapsed, hannounced⟩ := Call.mk.inj (h draw hop hs)
  have hevent (result : Except OperationError Response) : logEvent op result = logEvent op' result := by
    simp only [logEvent, hop.observed, hop.name, hop.context]
  simp only [logged, Call.veiled, hresult, hnotes, hstate, helapsed, hannounced, hevent]

theorem traced_discreet : Discreet (traced inner) := by
  intro draw op op' s s' hop hs
  obtain ⟨hresult, hnotes, hstate, helapsed, hannounced⟩ := Call.mk.inj (h draw hop hs)
  have hfields : spanFields op = spanFields op' := by
    simp only [spanFields, hop.observed, hop.context]
  simp only [traced, Call.veiled, hresult, hnotes, hstate, helapsed, hannounced, hfields, hop.name]

theorem reported_discreet (reporter : Reporter) : Discreet (reported reporter inner) := by
  intro draw op op' s s' hop hs
  obtain ⟨hresult, hnotes, hstate, helapsed, hannounced⟩ := Call.mk.inj (h draw hop hs)
  have hreport : report? op = report? op' := by
    funext result
    rcases result with (_ | _ | _) | _ <;> simp only [report?, hop.observed, hop.name]
  simp only [reported, Call.veiled, hresult, hnotes, hstate, helapsed, hannounced, hreport]

theorem layer_discreet {f : Service MemoryStore → Service MemoryStore}
    (hf : ∀ {inner}, Discreet inner → Discreet (f inner)) (wanted : Bool) :
    Discreet (layer wanted f inner) := by
  cases wanted with
  | false => exact h
  | true => exact hf h

theorem pipeline_discreet (settings : ServiceSettings) (reporter : Reporter) :
    Discreet (pipeline settings reporter inner) := by
  have hreported := layer_discreet h (fun hi => reported_discreet hi reporter) settings.errorReporting
  have htraced := layer_discreet hreported traced_discreet settings.tracing
  have hlogged := layer_discreet htraced logged_discreet settings.logging
  exact layer_discreet hlogged counted_discreet settings.metrics

end

end Service

end Roster
