import Roster.Proofs.Listing
import Roster.Proofs.Runs
/-! # Pages of one list

The accounts that a query selects are handed out page by page. As long as the rows stay as they are,
the pages at the offsets one limit apart are the blocks of one list: each of them stands where the
one before it ends, and all together they are the list. -/
namespace Roster

/-- The same query for the page that begins at another row. -/
def ListUsers.startingAt (r : ListUsers) (offset : UInt32) : ListUsers := { r with offset }

/-- The same query for pages of another size. -/
def ListUsers.sized (r : ListUsers) (limit : UInt32) : ListUsers := { r with limit }

/-- The first rows of the pages of one size, as far as they can be asked for. -/
def starts (limit : UInt32) : List UInt32 :=
  (List.range (0xFFFFFFFE / limit.toNat + 1)).map fun k => .ofNat (1 + k * limit.toNat)

theorem toNat_start {limit : UInt32} {k : Nat} (h : k < 0xFFFFFFFE / limit.toNat + 1) :
    (UInt32.ofNat (1 + k * limit.toNat)).toNat = 1 + k * limit.toNat := by
  have hle : k * limit.toNat ≤ 0xFFFFFFFE :=
    Nat.le_trans (Nat.mul_le_mul_right _ (Nat.le_of_lt_succ h)) (Nat.div_mul_le_self _ _)
  have hsize : UInt32.size = 0x100000000 := rfl
  exact UInt32.toNat_ofNat_of_lt' (by omega)

/-- Nothing that fits is left out. -/
theorem mem_starts {limit offset : UInt32} (hpos : 0 < limit.toNat) :
    offset ∈ starts limit ↔ ∃ k, offset.toNat = 1 + k * limit.toNat := by
  constructor
  · intro h
    obtain ⟨k, hk, rfl⟩ := List.mem_map.mp h
    exact ⟨k, toNat_start (List.mem_range.mp hk)⟩
  · rintro ⟨k, hk⟩
    have hlt := offset.toNat_lt
    have hle : k ≤ 0xFFFFFFFE / limit.toNat := (Nat.le_div_iff_mul_le hpos).mpr (by omega)
    refine List.mem_map.mpr ⟨k, List.mem_range.mpr (Nat.lt_succ_of_le hle), ?_⟩
    rw [← hk]
    exact UInt32.ofNat_toNat

theorem flatMap_blocks {α : Type} (l : List α) (size count : Nat) :
    (List.range count).flatMap (fun k => (l.drop (k * size)).take size) =
      l.take (count * size) := by
  induction count with
  | zero => simp
  | succ count ih =>
    rw [List.range_succ, List.flatMap_append, ih, Nat.succ_mul, List.take_add]
    simp

/-- The pages are the blocks of a list: nothing is left out, nothing stands twice, and only the last
page with something on it may be short. -/
structure Tiles (matching : List User) (size : Nat) (pages : List (List User)) : Prop where
  flatten : pages.flatten = matching
  bounded : ∀ page ∈ pages, page.length ≤ size
  full : ∀ i page next, pages[i]? = some page → pages[i + 1]? = some next → next ≠ [] →
    page.length = size

theorem tiles_blocks {matching : List User} {size count : Nat}
    (h : matching.length ≤ count * size) :
    Tiles matching size ((List.range count).map fun k => (matching.drop (k * size)).take size) where
  flatten := by
    rw [← List.flatMap_def, flatMap_blocks, List.take_of_length_le h]
  bounded page hpage := by
    obtain ⟨k, -, rfl⟩ := List.mem_map.mp hpage
    exact List.length_take_le _ _
  full i page next hpage hnext hne := by
    obtain ⟨_, rfl⟩ := List.getElem?_eq_some_iff.mp hpage
    obtain ⟨_, rfl⟩ := List.getElem?_eq_some_iff.mp hnext
    simp only [List.getElem_map, List.getElem_range, List.length_take, List.length_drop] at hne ⊢
    -- Something stands behind the page.
    have hbehind : (i + 1) * size < matching.length := Nat.lt_of_not_le fun hle =>
      hne (by rw [List.drop_of_length_le hle, List.take_nil])
    rw [Nat.succ_mul] at hbehind
    omega

namespace ListUsers

theorem selects_startingAt (r : ListUsers) (offset : UInt32) :
    (r.startingAt offset).selects = r.selects := rfl

/-- The first row of a page counts from one, and zero stands for it. -/
theorem window_startingAt {r : ListUsers} (hlimit : r.limit ≠ 0) (maxLimit offset : UInt32)
    (rows : List User) :
    (r.startingAt offset).window maxLimit rows =
      ((rows.filter r.selects).drop (max offset.toNat 1 - 1)).take r.limit.toNat := by
  have hsize : (r.startingAt offset).windowSize maxLimit = r.limit.toNat := if_neg hlimit
  rw [window, hsize, selects_startingAt]
  rfl

theorem window_eq_nil_iff {r : ListUsers} (hlimit : 0 < r.limit.toNat) (maxLimit : UInt32)
    (rows : List User) :
    r.window maxLimit rows = [] ↔ (rows.filter r.selects).length < max r.offset.toNat 1 := by
  have hne : r.limit ≠ 0 := fun h0 => by
    rw [h0] at hlimit
    exact absurd hlimit (by decide)
  rw [← List.length_eq_zero_iff, window, windowSize, if_neg hne, List.length_take, List.length_drop]
  omega

end ListUsers

namespace Page

theorem resolve_zero_offset (limit maxLimit : UInt32) :
    resolve limit 0 maxLimit = resolve limit 1 maxLimit := rfl

theorem resolve_zero_limit {maxLimit : UInt32} (h : 1 ≤ maxLimit) (offset : UInt32) :
    resolve 0 offset maxLimit = resolve (min 50 maxLimit) offset maxLimit := by
  have hmin : min 50 maxLimit = if 50 ≤ maxLimit then 50 else maxLimit := rfl
  by_cases hfifty : 50 ≤ maxLimit
  · have hnot : ¬ maxLimit < 50 := UInt32.not_lt.mpr hfifty
    rw [hmin, if_pos hfifty]
    simp [resolve, defaultLimit, hnot]
  · have hlt : maxLimit < 50 := UInt32.not_le.mp hfifty
    have hne : maxLimit ≠ 0 := by
      rintro rfl
      exact absurd h (by decide)
    rw [hmin, if_neg hfifty]
    simp [resolve, defaultLimit, hlt, hne, UInt32.lt_irrefl]

end Page

namespace Service

/-- A request for too large a page is refused whatever the repository is, and whoever waits for it:
the repository is not entered. -/
theorem users_too_large {σ : Type} {maxLimit : UInt32} {r : ListUsers} (h : maxLimit < r.limit)
    (latency : Nat) (repository : Repository σ) (draw : Draw) (context : Context) (s : σ) :
    users maxLimit latency repository draw ⟨context, .list r⟩ s =
      { result := some (.error (.invalid (.limitTooLarge r.limit maxLimit))), state := s } := by
  have hcommand : (Request.list r).command maxLimit =
      .error (.limitTooLarge r.limit maxLimit) := by
    rw [Request.command, Page.resolve_eq_error_iff.mpr h]
    rfl
  simp only [users, hcommand]

/-- What two lists come to is the same if they resolve to one page of one list. -/
theorem users_list_congr {σ : Type} {maxLimit : UInt32} {r r' : ListUsers}
    (hconditions : r.conditions = r'.conditions)
    (hpage : Page.resolve r.limit r.offset maxLimit = Page.resolve r'.limit r'.offset maxLimit)
    (latency : Nat) (repository : Repository σ) (draw : Draw) (context : Context) :
    users maxLimit latency repository draw ⟨context, .list r⟩ =
      users maxLimit latency repository draw ⟨context, .list r'⟩ := by
  have hcommand : (Request.list r).command maxLimit = (Request.list r').command maxLimit := by
    rw [Request.command, Request.command, hconditions, hpage]
  funext s
  simp only [users, hcommand]
  rfl

end Service

/-- The same call with another request. -/
def ClientCall.asking (c : ClientCall) (request : Request) : ClientCall := { c with request }

namespace Server

/-- Nothing keeps the store from answering the call: it does not reject, and whoever calls waits
long enough. -/
def Grants (s : Server) (c : ClientCall) : Prop :=
  s.store.failing = false ∧ ((s.operation c).context.settle s.latency).2 = .done

section

variable {s : Server} (hs : s.core = .users)
include hs

theorem call_page {c : ClientCall} {r : ListUsers} (hc : c.request = .list r) (h : s.Grants c)
    (hlimit : r.limit ≤ s.service.maxPageLimit) :
    (s.call c).value =
        some (.ok (.users ((r.window s.service.maxPageLimit s.store.rows).map UserView.ofUser))) ∧
      (s.call c).server.store = s.store := by
  obtain ⟨call, hends, hvalue, hstore, -⟩ := call_ends hs c
  obtain ⟨hfailing, hdone⟩ := h
  have hrequest : (s.operation c).request = .list r := hc
  rw [hvalue, hstore]
  cases hends with
  | refused hbreaks =>
    rw [hrequest] at hbreaks
    exact absurd hlimit (UInt32.not_le.mpr hbreaks)
  | interrupted _ hends | abandoned _ hends =>
    rw [hends] at hdone
    cases hdone
  | rejected _ _ hf => exact absurd (hf.symm.trans hfailing) (by decide)
  | missed _ _ _ hmisses =>
    rw [hrequest] at hmisses
    exact hmisses.elim
  | committed _ _ _ _ hcommits =>
    rw [hrequest] at hcommits
    cases hcommits with
    | list hpage => exact ⟨by rw [Page.slice_of_resolve hpage], rfl⟩

theorem call_too_large {c : ClientCall} {r : ListUsers} (hc : c.request = .list r)
    (h : s.service.maxPageLimit < r.limit) :
    (s.call c).value =
        some (.error (.invalid (.limitTooLarge r.limit s.service.maxPageLimit))) ∧
      (s.call c).server.store = s.store := by
  obtain ⟨hvalue, hstore, -⟩ := call_users hs c
  have hrequest : s.operation c = ⟨(s.operation c).context, .list r⟩ := by
    rw [← hc]
    rfl
  rw [hvalue, hstore, hrequest, Service.users_too_large h]
  exact ⟨rfl, rfl⟩

theorem call_list_congr {r r' : ListUsers} (hconditions : r.conditions = r'.conditions)
    (hpage : Page.resolve r.limit r.offset s.service.maxPageLimit =
      Page.resolve r'.limit r'.offset s.service.maxPageLimit) (c : ClientCall) :
    (s.call (c.asking (.list r))).value = (s.call (c.asking (.list r'))).value := by
  rw [(call_users hs _).1, (call_users hs _).1]
  exact congrArg Call.result
    (congrFun (Service.users_list_congr hconditions hpage s.latency _ c.draw _) s.store)

end

/-- The pages of a query are asked for one after another, at these offsets and with these answers.
Whatever else happens meanwhile leaves the rows as they are. -/
inductive Turns (r : ListUsers) :
    Server → List UInt32 → List (Option (Except OperationError Response)) → Prop
  | done (s : Server) : Turns r s [] []
  | meanwhile {s : Server} {offsets : List UInt32}
      {answers : List (Option (Except OperationError Response))} (a : Action)
      (hrows : (s.after a).store.rows = s.store.rows)
      (hrest : Turns r (s.after a) offsets answers) : Turns r s offsets answers
  | page {s : Server} {offset : UInt32} {offsets : List UInt32}
      {answers : List (Option (Except OperationError Response))} (c : ClientCall)
      (hc : c.request = .list (r.startingAt offset)) (hgrants : s.Grants c)
      (hrest : Turns r (s.after (.call c)) offsets answers) :
      Turns r s (offset :: offsets) ((s.call c).value :: answers)

/-- The answer that consists of one page. -/
def pageAnswer (page : List User) : Option (Except OperationError Response) :=
  some (.ok (.users (page.map UserView.ofUser)))

theorem Turns.answers_eq {r : ListUsers} {s : Server} {offsets : List UInt32}
    {answers : List (Option (Except OperationError Response))} (h : s.Turns r offsets answers)
    (hs : s.core = .users) (hlimit : r.limit ≤ s.service.maxPageLimit) :
    answers = offsets.map fun offset =>
      pageAnswer ((r.startingAt offset).window s.service.maxPageLimit s.store.rows) := by
  induction h with
  | done s => rfl
  | @meanwhile s offsets answers a hrows hrest ih =>
    have hrest := ih ((after_core s a).trans hs) (by rwa [after_service])
    rwa [after_service, hrows] at hrest
  | @page s offset offsets answers c hc hgrants hrest ih =>
    obtain ⟨hvalue, hstore⟩ := call_page hs hc hgrants hlimit
    have hstore : (s.after (.call c)).store = s.store := hstore
    have hrest := ih ((after_core s _).trans hs) (by rwa [after_service])
    rw [after_service, hstore] at hrest
    rw [hvalue, hrest, List.map_cons]
    rfl

theorem Turns.tiles {r : ListUsers} {s : Server}
    {answers : List (Option (Except OperationError Response))}
    (h : s.Turns r (starts r.limit) answers) (hs : s.core = .users) (hpos : 0 < r.limit)
    (hlimit : r.limit ≤ s.service.maxPageLimit)
    (hfew : (s.store.rows.filter r.selects).length < 0x100000000) :
    ∃ pages, answers = pages.map pageAnswer ∧
      Tiles (s.store.rows.filter r.selects) r.limit.toNat pages := by
  have hsize : 0 < r.limit.toNat := UInt32.lt_iff_toNat_lt.mp hpos
  have hne : r.limit ≠ 0 := by
    rintro h0
    rw [h0] at hpos
    exact absurd hpos (by decide)
  -- All offsets that fit reach beyond every list that is short enough to be counted.
  have hreach : (s.store.rows.filter r.selects).length ≤
      (0xFFFFFFFE / r.limit.toNat + 1) * r.limit.toNat := by
    have hdiv := Nat.div_add_mod 0xFFFFFFFE r.limit.toNat
    have hmod := Nat.mod_lt 0xFFFFFFFE hsize
    rw [Nat.succ_mul, Nat.mul_comm]
    omega
  refine ⟨_, ?_, tiles_blocks hreach⟩
  rw [h.answers_eq hs hlimit, starts, List.map_map, List.map_map]
  refine List.map_congr_left fun k hk => ?_
  have hstart := toNat_start (List.mem_range.mp hk)
  have hskip : max (1 + k * r.limit.toNat) 1 - 1 = k * r.limit.toNat := by omega
  simp only [Function.comp_apply, ListUsers.window_startingAt hne, hstart, hskip]

/-- The pages at the offsets one limit apart are the blocks of the list of all accounts that match.
A page is empty if it begins behind the list. A query for no row begins with the first, and one for
no size means the default, as far as it is allowed. Too large pages are refused before anything is
asked of the repository. -/
theorem pages_exact {s : Server} (hs : s.core = .users) (r : ListUsers) :
    (0 < r.limit → r.limit ≤ s.service.maxPageLimit →
      ((s.store.rows.filter r.selects).length < 0x100000000 →
        ∀ answers, s.Turns r (starts r.limit) answers →
          ∃ pages, answers = pages.map pageAnswer ∧
            Tiles (s.store.rows.filter r.selects) r.limit.toNat pages) ∧
      ∀ c, c.request = .list r → s.Grants c →
        ∃ page, (s.call c).value = pageAnswer page ∧
          (page = [] ↔ (s.store.rows.filter r.selects).length < max r.offset.toNat 1)) ∧
    (∀ c : ClientCall, (s.call (c.asking (.list (r.startingAt 0)))).value =
      (s.call (c.asking (.list (r.startingAt 1)))).value) ∧
    (1 ≤ s.service.maxPageLimit → ∀ c : ClientCall,
      (s.call (c.asking (.list (r.sized 0)))).value =
        (s.call (c.asking (.list (r.sized (min 50 s.service.maxPageLimit))))).value) ∧
    (s.service.maxPageLimit < r.limit →
      (∀ c, c.request = .list r → (s.call c).value =
          some (.error (.invalid (.limitTooLarge r.limit s.service.maxPageLimit))) ∧
        (s.call c).server.store = s.store) ∧
      ∀ (σ : Type) (repository : Repository σ) (draw : Draw) (context : Context) (t : σ),
        Service.users s.service.maxPageLimit s.latency repository draw ⟨context, .list r⟩ t =
          { result := some (.error (.invalid (.limitTooLarge r.limit s.service.maxPageLimit)))
            state := t }) := by
  refine ⟨fun hpos hlimit => ⟨fun hfew answers hturns => hturns.tiles hs hpos hlimit hfew,
    fun c hc hgrants => ?_⟩, ?_, fun hmax => ?_, fun hlarge => ⟨?_, ?_⟩⟩
  · exact ⟨_, (call_page hs hc hgrants hlimit).1,
      r.window_eq_nil_iff (UInt32.lt_iff_toNat_lt.mp hpos) _ _⟩
  · exact call_list_congr hs rfl (Page.resolve_zero_offset _ _)
  · exact call_list_congr hs rfl (Page.resolve_zero_limit hmax _)
  · exact fun c hc => call_too_large hs hc hlarge
  · exact fun σ repository => Service.users_too_large hlarge s.latency repository

theorem pages_exact_two :
    let ann : User := ⟨"a", { nickname := "ann", country := "de" }, .epoch, .epoch⟩
    let bob : User := ⟨"b", { nickname := "bob", country := "de" }, .epoch, .epoch⟩
    let s : Server := { initial with
      service := { maxPageLimit := 0x80000000 }
      store := { rows := [ann, { ann with id := "c", profile := {} }, bob] } }
    let r : ListUsers := { limit := 0x80000000, country := "de" }
    let first : ClientCall := { draw := ⟨"", .epoch⟩, request := .list (r.startingAt 1) }
    let second : ClientCall := first.asking (.list (r.startingAt 0x80000001))
    (∃ pages, [(s.call first).value, ((s.after (.call first)).call second).value] =
        pages.map pageAnswer ∧ Tiles [ann, bob] 0x80000000 pages) ∧
      (∃ page, (s.call second).value = pageAnswer page ∧ page = []) ∧
      (s.call (first.asking (.list (r.sized 0)))).value =
        (s.call (first.asking (.list (r.sized 50)))).value ∧
      (s.call (first.asking (.list (r.sized 0x80000001)))).value =
        some (.error (.invalid (.limitTooLarge 0x80000001 0x80000000))) := by
  intro ann bob s r first second
  obtain ⟨hpages, -, hsized, -⟩ := pages_exact (s := s) rfl r
  obtain ⟨htiles, -⟩ := hpages (by decide) (by decide)
  obtain ⟨hsecond, -⟩ := pages_exact (s := s) rfl (r.startingAt 0x80000001)
  obtain ⟨page, hpage, hempty⟩ := (hsecond (by decide) (by decide)).2 second rfl ⟨rfl, rfl⟩
  obtain ⟨-, -, -, hlarge⟩ := pages_exact (s := s) rfl (r.sized 0x80000001)
  refine ⟨?_, ⟨page, hpage, hempty.mpr (by decide)⟩, hsized (by decide) first,
    ((hlarge (by decide)).1 _ rfl).1⟩
  have hstarts : starts r.limit = [1, 0x80000001] := by decide
  refine htiles (by decide) _ ?_
  rw [hstarts]
  exact .page first rfl ⟨rfl, rfl⟩ (.page second rfl ⟨rfl, rfl⟩ (.done _))

end Server

end Roster
