import HaoShortLink.SchemaUpgrades
import Mathlib.Tactic.IntervalCases

/-! An up run that is stopped between two statements, and the up run that follows it. -/
namespace InterruptedMigrations

open Cpp Actions Action SqlTables SchemaMigrations SchemaUpgrades

def fromEmpty : List Statement :=
  migration001 ++ (migration002 ++ (migration003 ++ (migration004 ++ migration005)))

def upStatements (d : Database) : List Statement :=
  createSchemaMigrations :: if tableExists d .shortLinks then migration005 else fromEmpty

/-- What was executed includes all statistics tables if it includes short_links, and everything if
it includes users. -/
def Resumable (executed : List Statement) : Prop :=
  (createShortLinks ∈ executed → createHourly ∈ executed) ∧
    (createUsers ∈ executed → insertVersions ∈ executed)

section Script

variable {clock : ℕ → ℤ} {d d' : Database} {i k : ℕ} {statements : List Statement}

theorem run_then_congr {x g g' : Script Unit} (h : ∀ s, g.run s = g'.run s) (s : State) :
    (x >>= fun _ => g).run s = (x >>= fun _ => g').run s := by
  rw [run_bind, run_bind]
  cases x.run s with
  | mk r s' =>
    cases r with
    | ok u => exact h s'
    | error e => rfl

theorem mysqlCommand_append (run : Run) (first second : List Statement) (g : Script Unit)
    (s : State) : (do mysqlCommand run (first ++ second); g : Script Unit).run s =
      (do mysqlCommand run first; mysqlCommand run second; g : Script Unit).run s := by
  induction first generalizing s with
  | nil => rfl
  | cons statement first ih =>
    simp only [List.cons_append, mysqlCommand, run_bind] at ih ⊢
    cases (execute run statement).run s with
    | mk r s' =>
      cases r with
      | ok u => exact ih s'
      | error e => rfl

theorem execute_ok {run : Run} {statement : Statement} (hbudget : run.stopAfter ≠ some i)
    (h : statement.run (run.clock i) d = some d') :
    (execute run statement).run ⟨d, i⟩ = (.ok (), ⟨d', i + 1⟩) := by
  simp only [execute, if_neg hbudget, h]

theorem mysqlCommand_completes (h : runAll clock i d statements = some d') :
    (mysqlCommand ⟨clock, none⟩ statements).run ⟨d, i⟩ = (.ok (), ⟨d', i + statements.length⟩) := by
  induction statements generalizing i d with
  | nil =>
    cases h
    rfl
  | cons statement statements ih =>
    obtain ⟨d₁, hfirst, hrest⟩ := Option.bind_eq_some_iff.mp h
    have hgoes : (⟨clock, none⟩ : Run).stopAfter ≠ some i := (Option.some_ne_none i).symm
    rw [mysqlCommand, run_bind_ok (execute_ok hgoes hfirst), ih hrest,
      List.length_cons, Nat.add_comm statements.length, Nat.add_assoc]

theorem mysqlCommand_stops (h : runAll clock i d statements = some d') (hk : i ≤ k) :
    ∃ r d₁, (mysqlCommand ⟨clock, some k⟩ statements).run ⟨d, i⟩ =
        (r, ⟨d₁, i + (statements.take (k - i)).length⟩) ∧
      runAll clock i d (statements.take (k - i)) = some d₁ ∧
      (r = .ok () ↔ i + statements.length ≤ k) := by
  induction statements generalizing i d with
  | nil =>
    cases h
    refine ⟨.ok (), d', ?_, ?_, ?_⟩
    · simp [mysqlCommand]
    · simp [runAll]
    · simpa using hk
  | cons statement statements ih =>
    obtain ⟨d₁, hfirst, hrest⟩ := Option.bind_eq_some_iff.mp h
    rcases Nat.eq_or_lt_of_le hk with rfl | hlt
    · refine ⟨.error .stopped, d, ?_, by simp [runAll], by simp⟩
      have hstop : (execute ⟨clock, some i⟩ statement).run ⟨d, i⟩ = (.error .stopped, ⟨d, i⟩) := by
        simp [execute]
      rw [mysqlCommand, run_bind_error hstop]
      simp
    · obtain ⟨r, d₂, hrun, hprefix, hr⟩ := ih hrest hlt
      have hne : (⟨clock, some k⟩ : Run).stopAfter ≠ some i := by
        intro hsame
        exact absurd (Option.some.inj hsame) (Nat.ne_of_gt hlt)
      have hcount : k - i = k - (i + 1) + 1 := by omega
      refine ⟨r, d₂, ?_, ?_, ?_⟩
      · rw [mysqlCommand, run_bind_ok (execute_ok hne hfirst), hrun, hcount, List.take_succ_cons,
          List.length_cons]
        congr 2
        omega
      · rw [hcount, List.take_succ_cons, runAll, hfirst]
        exact hprefix
      · rw [hr, List.length_cons]
        omega

/-- d' is d behind the first statement, and the script goes on to the others. -/
structure Pending (now : ℤ) (d d' : Database) : Prop where
  created : createSchemaMigrations.run now d = some d'
  unrecorded : count d' .schemaMigrations (fun row => row .version == .int 5) = 0
  supported : tableExists d .shortLinks = true → columnExists d' .shortLinks .status = true ∧
    tableExists d' .processedAccessEvents = true

theorem applyUp_eq {run : Run} (h : Pending (run.clock 0) d d') : (applyUp run).run ⟨d, 0⟩ =
    (do mysqlCommand run (upStatements d); validate : Script Unit).run ⟨d, 0⟩ := by
  have hlinks : tableExists d' .shortLinks = tableExists d .shortLinks := by
    rw [tableExists, tableExists, run_other h.created (by decide)]
  have happlied :
      (count d' .schemaMigrations (fun row => row .version == .int 5) == 1) = false := by
    rw [h.unrecorded]
    rfl
  unfold applyUp upStatements
  by_cases hstop : run.stopAfter = some 0
  · have herror : (execute run createSchemaMigrations).run ⟨d, 0⟩ =
        (.error .stopped, ⟨d, 0⟩) := by
      simp only [execute, if_pos hstop]
    rw [run_bind_error herror, mysqlCommand]
    exact (run_bind_error (run_bind_error herror _) _).symm
  · have hok := execute_ok (i := 0) hstop h.created
    have hrest : ∀ rest : List Statement,
        (do mysqlCommand run (createSchemaMigrations :: rest); validate : Script Unit).run ⟨d, 0⟩ =
          (do mysqlCommand run rest; validate : Script Unit).run ⟨d', 1⟩ := by
      intro rest
      rw [mysqlCommand, run_bind, run_bind, hok]
      rfl
    rw [hrest, run_bind_ok hok]
    cases hexists : tableExists d .shortLinks with
    | true =>
      obtain ⟨hstatus, hprocessed⟩ := h.supported hexists
      rw [hexists] at hlinks
      simp only [run_bind, Action.read, happlied, hlinks, hstatus, hprocessed, Bool.and_self,
        Bool.not_true, Bool.false_eq_true, if_false, if_true]
    | false =>
      rw [hexists] at hlinks
      have h4 := mysqlCommand_append run migration004 migration005 validate
      have h3 := fun s => (mysqlCommand_append run migration003 _ validate s).trans
        (run_then_congr h4 s)
      have h2 := fun s => (mysqlCommand_append run migration002 _ validate s).trans
        (run_then_congr h3 s)
      have h1 := fun s => (mysqlCommand_append run migration001 _ validate s).trans
        (run_then_congr h2 s)
      rw [if_neg (by simp), fromEmpty, h1]
      simp only [run_bind, Action.read, happlied, hlinks, Bool.not_false, Bool.false_eq_true,
        if_false, if_true]

theorem mysqlCommand_other {run : Run} {table : Name} (s : State)
    (h : ∀ statement ∈ statements, table ≠ statement.table) :
    ((mysqlCommand run statements).run s).2.database table = s.database table := by
  induction statements generalizing s with
  | nil => rfl
  | cons statement statements ih =>
    have hfirst : ((execute run statement).run s).2.database table = s.database table := by
      simp only [execute]
      split
      · rfl
      · split
        · rename_i d' hrun
          exact run_other hrun (h statement (by simp))
        · rfl
    rw [mysqlCommand, run_bind]
    cases hrun : (execute run statement).run s with
    | mk r s' =>
      rw [hrun] at hfirst
      cases r with
      | ok u => exact (ih s' fun x hx => h x (List.mem_cons_of_mem _ hx)).trans hfirst
      | error e => exact hfirst

theorem validate_state (s : State) : (validate.run s).2 = s := by
  simp only [validate, run_bind, Action.read]
  split <;> rfl

theorem then_validate_state (x : Script Unit) (s : State) :
    ((do x; validate : Script Unit).run s).2 = (x.run s).2 := by
  rw [run_bind]
  cases x.run s with
  | mk r s' =>
    cases r with
    | ok u => exact validate_state s'
    | error e => rfl

theorem validate_ok {s : State} (h : validateV2Schema s.database = true) :
    validate.run s = (.ok (), s) := by
  simp only [validate, run_bind, Action.read, h, if_true]
  rfl

theorem applyUp_stops (h : Pending (clock 0) d d') {last : Database}
    (hall : runAll clock 0 d (upStatements d) = some last) (k : ℕ) :
    runAll clock 0 d ((upStatements d).take k) =
      some ((applyUp ⟨clock, some k⟩).run ⟨d, 0⟩).2.database := by
  obtain ⟨r, d₁, hrun, hprefix, -⟩ := mysqlCommand_stops hall (Nat.zero_le k)
  rw [applyUp_eq h, then_validate_state, hrun]
  exact hprefix

theorem stopped_at_once : (applyUp ⟨clock, some 0⟩).run ⟨d, 0⟩ = (.error .stopped, ⟨d, 0⟩) := by
  have hstops : (execute ⟨clock, some 0⟩ createSchemaMigrations).run ⟨d, 0⟩ =
      (.error .stopped, ⟨d, 0⟩) := by
    simp only [execute, if_true]
  exact run_bind_error hstops _

theorem applyUp_completes (h : Pending (clock 0) d d') {last : Database}
    (hall : runAll clock 0 d (upStatements d) = some last)
    (haccepted : validateV2Schema last = true) :
    (applyUp ⟨clock, none⟩).run ⟨d, 0⟩ = (.ok (), ⟨last, 0 + (upStatements d).length⟩) := by
  rw [applyUp_eq h, run_bind_ok (mysqlCommand_completes hall)]
  exact validate_ok haccepted

theorem execute_failed {statement : Statement} (h : statement.run (clock i) d = none) :
    (execute ⟨clock, none⟩ statement).run ⟨d, i⟩ = (.error .failed, ⟨d, i⟩) := by
  simp [execute, h]

theorem execute_existing (hcreated : (d .schemaMigrations).isSome = true) (i : ℕ) :
    (execute ⟨clock, none⟩ createSchemaMigrations).run ⟨d, i⟩ = (.ok (), ⟨d, i + 1⟩) := by
  obtain ⟨t, ht⟩ := Option.isSome_iff_exists.mp hcreated
  exact execute_ok (Option.some_ne_none i).symm (run_create_existing ht)

theorem applyUp_recorded (hcreated : (d .schemaMigrations).isSome = true)
    (hrecorded : count d .schemaMigrations (fun row => row .version == .int 5) = 1)
    (haccepted : validateV2Schema d = true) :
    (applyUp ⟨clock, none⟩).run ⟨d, 0⟩ = (.ok (), ⟨d, 1⟩) := by
  rw [applyUp, run_bind_ok (execute_existing hcreated 0)]
  simp only [run_bind, Action.read, hrecorded]
  exact validate_ok haccepted

theorem applyUp_again (hcreated : (d .schemaMigrations).isSome = true)
    (hunrecorded : count d .schemaMigrations (fun row => row .version == .int 5) = 0)
    (hlinks : tableExists d .shortLinks = true) : (applyUp ⟨clock, none⟩).run ⟨d, 0⟩ =
      if columnExists d .shortLinks .status && tableExists d .processedAccessEvents then
        (do mysqlCommand ⟨clock, none⟩ migration005; validate : Script Unit).run ⟨d, 1⟩
      else (.error .failed, ⟨d, 1⟩) := by
  have happlied : (count d .schemaMigrations (fun row => row .version == .int 5) == 1) = false := by
    rw [hunrecorded]
    rfl
  rw [applyUp, run_bind_ok (execute_existing hcreated 0)]
  simp only [run_bind, Action.read, happlied, hlinks, Bool.not_true, Bool.false_eq_true, if_false]
  cases columnExists d .shortLinks .status && tableExists d .processedAccessEvents <;> rfl

theorem applyUp_refused (hcreated : (d .schemaMigrations).isSome = true)
    (hunrecorded : count d .schemaMigrations (fun row => row .version == .int 5) = 0)
    (hlinks : tableExists d .shortLinks = true) (husers : (d .users).isSome = true) :
    ((applyUp ⟨clock, none⟩).run ⟨d, 0⟩).1 = .error .failed := by
  rw [applyUp_again hcreated hunrecorded hlinks]
  split
  · have hfirst : (execute ⟨clock, none⟩ createSchemaMigrations).run ⟨d, 1⟩ = (.ok (), ⟨d, 2⟩) :=
      execute_existing hcreated 1
    have hsecond : (execute ⟨clock, none⟩ createUsers).run ⟨d, 2⟩ = (.error .failed, ⟨d, 2⟩) :=
      execute_failed (run_create_refused husers)
    rw [migration005, mysqlCommand, mysqlCommand]
    have hstops := run_bind_error hsecond fun _ => mysqlCommand ⟨clock, none⟩ (migration005.drop 2)
    exact congrArg Prod.fst (run_bind_error ((run_bind_ok hfirst _).trans hstops) _)
  · rfl

end Script

section Supported

variable {clock : ℕ → ℤ} {d d' : Database} {i : ℕ}

theorem pending_of_supported {now : ℤ} (h : SupportedV19 d')
    (hcreated : createSchemaMigrations.run now d = some d') : Pending now d d' where
  created := hcreated
  unrecorded := h.count_version5
  supported := by
    intro _
    obtain ⟨links, hlinks, hlinksDefinition⟩ := h.definition .shortLinks (by decide) rfl
    obtain ⟨events, hevents, -⟩ := h.definition .processedAccessEvents (by decide) rfl
    rw [columnExists, tableExists, hlinks, hevents, Option.any_some, hlinksDefinition]
    exact ⟨rfl, rfl⟩

theorem upStatements_of_supported (h : SupportedV19 d) :
    upStatements d = [createSchemaMigrations] ++ migration005 := by
  obtain ⟨links, hlinks, -⟩ := h.definition .shortLinks (by decide) rfl
  rw [upStatements, tableExists, hlinks]
  rfl

theorem up_of_supported (h : SupportedV19 d) (clock : ℕ → ℤ) :
    ((applyUp ⟨clock, none⟩).run ⟨d, 0⟩).1 = .ok () ∧
      Completed d ((applyUp ⟨clock, none⟩).run ⟨d, 0⟩).2.database := by
  obtain ⟨d₁, hfirst, h₁, hcreated, hrows⟩ := h.created (clock 0)
  obtain ⟨last, hlast, hupgraded⟩ := migration005_upgrades clock 1 (h₁.upgradable hcreated)
  have hall : runAll clock 0 d (upStatements d) = some last := by
    rw [upStatements_of_supported h, List.singleton_append, runAll_cons hfirst, hlast]
  rw [applyUp_completes (pending_of_supported h₁ hfirst) hall hupgraded.accepted]
  exact ⟨rfl, (completed_congr hrows).mp (h₁.completed hupgraded)⟩

theorem same_before_users {j : ℕ} (hcreated : (d .schemaMigrations).isSome = true) (hj : j < 2)
    (hrun : runAll clock i d (migration005.take j) = some d') : d' = d := by
  obtain ⟨migrations, hmigrations⟩ := Option.isSome_iff_exists.mp hcreated
  have hfirst : createSchemaMigrations.run (clock i) d = some d := run_create_existing hmigrations
  interval_cases j
  · exact (Option.some.inj hrun).symm
  · exact (Option.some.inj ((runAll_cons hfirst).symm.trans hrun)).symm

theorem refused_behind_users {j : ℕ} (h : SupportedV19 d)
    (hcreated : (d .schemaMigrations).isSome = true) (hj : 2 ≤ j) (hj' : j < 8)
    (hrun : runAll clock i d (migration005.take j) = some d') (second : ℕ → ℤ) :
    ((applyUp ⟨second, none⟩).run ⟨d', 0⟩).1 = .error .failed := by
  have husers : createUsers ∈ migration005.take j := by
    interval_cases j <;> decide
  have hothers : ∀ statement ∈ (migration005.take j).tail,
      Name.schemaMigrations ≠ statement.table := by
    interval_cases j <;> decide
  have hhead : migration005.take j = createSchemaMigrations :: (migration005.take j).tail := by
    interval_cases j <;> rfl
  have hunrecorded : count d' .schemaMigrations (fun row => row .version == .int 5) = 0 := by
    obtain ⟨migrations, hmigrations⟩ := Option.isSome_iff_exists.mp hcreated
    have hfirst : createSchemaMigrations.run (clock i) d = some d := run_create_existing hmigrations
    rw [hhead, runAll_cons hfirst] at hrun
    rw [count, rowsOf, runAll_other hrun hothers]
    exact h.count_version5
  have hlinks : tableExists d' .shortLinks = true := by
    obtain ⟨links, hlinks, -⟩ := h.definition .shortLinks (by decide) rfl
    apply runAll_exists hrun
    rw [hlinks]
    rfl
  exact applyUp_refused (runAll_exists hrun hcreated) hunrecorded hlinks (runAll_table hrun husers)

/-- What migration 005 leaves behind can be resumed if users is not there or everything is. -/
theorem resumed_of_supported_iff (h : SupportedV19 d)
    (hcreated : (d .schemaMigrations).isSome = true) {j : ℕ}
    (hrun : runAll clock i d (migration005.take j) = some d') (second : ℕ → ℤ) :
    (((applyUp ⟨second, none⟩).run ⟨d', 0⟩).1 = .ok () ∧
      Completed d ((applyUp ⟨second, none⟩).run ⟨d', 0⟩).2.database) ↔
      (createUsers ∈ migration005.take j → insertVersions ∈ migration005.take j) := by
  rcases Nat.lt_or_ge j 2 with hj | hj
  · have husers : createUsers ∉ migration005.take j := by
      interval_cases j <;> decide
    rw [same_before_users hcreated hj hrun]
    exact ⟨fun _ hmem => absurd hmem husers, fun _ => up_of_supported h second⟩
  rcases Nat.lt_or_ge j 8 with hlt | hge
  · have husers : createUsers ∈ migration005.take j := by
      interval_cases j <;> decide
    have hversions : insertVersions ∉ migration005.take j := by
      interval_cases j <;> decide
    rw [refused_behind_users h hcreated hj hlt hrun second]
    constructor
    · rintro ⟨hok, -⟩
      cases hok
    · intro hall
      exact absurd (hall husers) hversions
  · have htake : migration005.take j = migration005 := List.take_of_length_le hge
    rw [htake] at hrun ⊢
    obtain ⟨last, hlast, hupgraded⟩ := migration005_upgrades clock i (h.upgradable hcreated)
    obtain rfl : last = d' := Option.some.inj (hlast.symm.trans hrun)
    rw [applyUp_recorded (runAll_exists hrun hcreated) hupgraded.count_version5 hupgraded.accepted]
    exact ⟨fun _ _ => by decide, fun _ => ⟨rfl, h.completed hupgraded⟩⟩

end Supported

/-- The table that each statement in front of migration 005 leaves, all of them without rows. -/
def builds : List (Name × Definition Name ColumnType) :=
  [(.schemaMigrations, schemaMigrations), (.shortLinks, shortLinks1), (.shortLinks, shortLinks1),
    (.shortLinks, shortLinks4), (.processedAccessEvents, processedAccessEvents),
    (.shortLinkAccessTotals, shortLinkAccessTotals),
    (.shortLinkAccessHourly, shortLinkAccessHourly)]

def stage (k : ℕ) : Database :=
  (builds.take k).foldl (fun d table => Function.update d table.1 (some ⟨table.2, [], 1⟩))
    fun _ => none

def building : List Statement :=
  createSchemaMigrations :: (migration001 ++ migration002 ++ migration003 ++ migration004)

section Empty

variable {clock : ℕ → ℤ}

theorem upStatements_of_empty {k : ℕ} (hk : k < 2) :
    upStatements (stage k) = building ++ migration005 := by
  interval_cases k <;> rfl

theorem stage_step {k : ℕ} (hk : k < 7) (now : ℤ) :
    ∃ statement, building[k]? = some statement ∧
      statement.run now (stage k) = some (stage (k + 1)) := by
  interval_cases k
  · exact ⟨createSchemaMigrations, rfl, run_create_new true rfl rfl⟩
  · exact ⟨createShortLinks, rfl, run_create_new true rfl rfl⟩
  · exact ⟨_, rfl, run_alter rfl rfl (valid_of_no_rows rfl)⟩
  · exact ⟨_, rfl, run_alter rfl rfl (valid_of_no_rows rfl)⟩
  · exact ⟨_, rfl, run_create_new true rfl rfl⟩
  · exact ⟨_, rfl, run_create_new true rfl rfl⟩
  · exact ⟨createHourly, rfl, run_create_new true rfl rfl⟩

theorem building_run (clock : ℕ → ℤ) {k : ℕ} (hk : k ≤ 7) :
    runAll clock 0 (stage 0) (building.take k) = some (stage k) := by
  induction k with
  | zero => rfl
  | succ k ih =>
    obtain ⟨statement, hstatement, hstep⟩ :=
      stage_step (Nat.lt_of_succ_le hk) (clock (0 + (building.take k).length))
    rw [List.take_add_one, hstatement, runAll_append, ih (Nat.le_of_succ_le hk), Option.bind_some]
    exact runAll_cons hstep

theorem pending_of_empty {k : ℕ} (hk : k < 2) (now : ℤ) : Pending now (stage k) (stage 1) where
  created := by
    interval_cases k
    · exact run_create_new true rfl rfl
    · exact run_create_existing rfl
  unrecorded := rfl
  supported := by
    intro hlinks
    interval_cases k <;> cases hlinks

theorem supported_built : SupportedV19 (stage 7) where
  tables := by
    intro table
    cases table <;> decide
  links := by
    intro t ht
    obtain rfl := Option.some.inj ht
    exact valid_of_no_rows rfl
  migrations := by
    intro t ht
    obtain rfl := Option.some.inj ht
    exact ⟨rfl, valid_of_no_rows rfl, by simp⟩

theorem empty_run {k : ℕ} (hk : k < 2) (clock : ℕ → ℤ) : ∃ last,
    runAll clock 0 (stage k) (upStatements (stage k)) = some last ∧ Upgraded (stage 7) last := by
  have hbuilt : runAll clock 0 (stage k) building = some (stage 7) := by
    have hempty := building_run clock (Nat.le_refl 7)
    have hfirst := (pending_of_empty (k := 0) (by decide) (clock 0)).created
    rw [building, List.take_of_length_le (by decide), runAll_cons hfirst] at hempty
    rw [building, runAll_cons (pending_of_empty hk (clock 0)).created]
    exact hempty
  have hlength : 0 + building.length = 7 := rfl
  obtain ⟨last, hlast, hupgraded⟩ := migration005_upgrades clock 7 (supported_built.upgradable rfl)
  refine ⟨last, ?_, hupgraded⟩
  rw [upStatements_of_empty hk, runAll_append, hbuilt, hlength, Option.bind_some, hlast]

/-- From an empty database, also behind the first statement, a run ends at version 5. -/
theorem up_of_empty {k : ℕ} (hk : k < 2) (clock : ℕ → ℤ) :
    ((applyUp ⟨clock, none⟩).run ⟨stage k, 0⟩).1 = .ok () ∧
      Completed (stage 0) ((applyUp ⟨clock, none⟩).run ⟨stage k, 0⟩).2.database := by
  obtain ⟨last, hall, hupgraded⟩ := empty_run hk clock
  rw [applyUp_completes (pending_of_empty hk (clock 0)) hall hupgraded.accepted]
  have hrows : rowsOf (stage 7) .shortLinks = rowsOf (stage 0) .shortLinks := rfl
  exact ⟨rfl, (completed_congr hrows).mp (supported_built.completed hupgraded)⟩

theorem stopped_while_building {k : ℕ} (hk : k ≤ 7) (clock : ℕ → ℤ) :
    ((applyUp ⟨clock, some k⟩).run ⟨stage 0, 0⟩).2.database = stage k := by
  obtain ⟨last, hall, -⟩ := empty_run (k := 0) (by decide) clock
  have hstopped := applyUp_stops (pending_of_empty (k := 0) (by decide) (clock 0)) hall k
  rw [upStatements_of_empty (by decide), List.take_append_of_le_length hk, building_run clock hk]
    at hstopped
  exact (Option.some.inj hstopped).symm

theorem fails_of_building {k : ℕ} (hk : 2 ≤ k) (hk' : k < 7) (clock : ℕ → ℤ) (d : Database) :
    ¬ (((applyUp ⟨clock, none⟩).run ⟨stage k, 0⟩).1 = .ok () ∧
      Completed d ((applyUp ⟨clock, none⟩).run ⟨stage k, 0⟩).2.database) := by
  have hcreated : ((stage k) .schemaMigrations).isSome = true := by
    interval_cases k <;> rfl
  have hunrecorded : count (stage k) .schemaMigrations (fun row => row .version == .int 5) = 0 := by
    interval_cases k <;> rfl
  have hlinks : tableExists (stage k) .shortLinks = true := by
    interval_cases k <;> rfl
  have hhourly : stage k .shortLinkAccessHourly = none := by
    interval_cases k <;> rfl
  rintro ⟨hok, hcompleted⟩
  have hschema := hcompleted.schema .shortLinkAccessHourly
  rw [applyUp_again hcreated hunrecorded hlinks] at hok hschema
  split at hok
  · -- nothing creates the missing table
    have hother : ∀ statement ∈ migration005, Name.shortLinkAccessHourly ≠ statement.table := by
      decide
    rw [if_pos ‹_›, then_validate_state, mysqlCommand_other _ hother] at hschema
    change (stage k .shortLinkAccessHourly).map Table.definition = _ at hschema
    rw [hhourly] at hschema
    cases hschema
  · cases hok

end Empty

/-- The end of the run that follows one that was stopped behind k statements. -/
def resumed (d : Database) (first second : ℕ → ℤ) (k : ℕ) : Except Exit Unit × State :=
  (applyUp ⟨second, none⟩).run ⟨((applyUp ⟨first, some k⟩).run ⟨d, 0⟩).2.database, 0⟩

section Resumed

variable {d d₁ d' : Database} {first : ℕ → ℤ} {before : List Statement}

/-- For a start on which migration 005 runs behind the statements before. -/
theorem resumed_behind_iff (hpending : Pending (first 0) d d₁)
    (hstatements : upStatements d = before ++ migration005)
    (hbefore : runAll first 0 d before = some d') (h : SupportedV19 d')
    (hcreated : (d' .schemaMigrations).isSome = true)
    (hrows : rowsOf d' .shortLinks = rowsOf d .shortLinks) (second : ℕ → ℤ) (j : ℕ) :
    ((resumed d first second (before.length + j)).1 = .ok () ∧
      Completed d (resumed d first second (before.length + j)).2.database) ↔
      (createUsers ∈ migration005.take j → insertVersions ∈ migration005.take j) := by
  obtain ⟨last, hlast, -⟩ := migration005_upgrades first (0 + before.length) (h.upgradable hcreated)
  have hall : runAll first 0 d (upStatements d) = some last := by
    rw [hstatements, runAll_append, hbefore, Option.bind_some, hlast]
  have hstopped := applyUp_stops hpending hall (before.length + j)
  rw [hstatements, List.take_length_add_append, runAll_append, hbefore, Option.bind_some]
    at hstopped
  rw [← resumed_of_supported_iff h hcreated hstopped second, completed_congr hrows, resumed]

theorem resumable_append_iff {rest : List Statement} (hrest : createShortLinks ∉ rest)
    (hlinks : createShortLinks ∈ before → createHourly ∈ before)
    (husers : createUsers ∉ before) (hversions : insertVersions ∉ before) :
    Resumable (before ++ rest) ↔ (createUsers ∈ rest → insertVersions ∈ rest) := by
  simp only [Resumable, List.mem_append, hrest, husers, hversions, or_false, false_or]
  exact ⟨fun h => h.2, fun h => ⟨fun hmem => Or.inl (hlinks hmem), h⟩⟩

/-- The following run ends at version 5 depending on the statements that were executed. -/
theorem interrupted_up_resumes_iff (d : Database)
    (hstart : (∀ table, d table = none) ∨ SupportedV19 d) (first second : ℕ → ℤ) (k : ℕ) :
    ((resumed d first second k).1 = .ok () ∧ Completed d (resumed d first second k).2.database) ↔
      Resumable ((upStatements d).take k) := by
  have hlater : ∀ j, createShortLinks ∉ migration005.take j :=
    fun j hmem => absurd (List.mem_of_mem_take hmem) (by decide)
  rcases hstart with hempty | h
  · obtain rfl : d = stage 0 := funext hempty
    have hstatements := upStatements_of_empty (k := 0) (by decide)
    rcases Nat.lt_or_ge k 7 with hk | hk
    · rw [resumed, stopped_while_building (Nat.le_of_lt hk) first]
      rcases Nat.lt_or_ge k 2 with hk' | hk'
      · refine iff_of_true (up_of_empty hk' second) ?_
        interval_cases k <;> unfold Resumable <;> decide
      · refine iff_of_false (fails_of_building hk' hk second _) ?_
        interval_cases k <;> unfold Resumable <;> decide
    · obtain ⟨j, rfl⟩ := Nat.exists_eq_add_of_le hk
      have hpending := pending_of_empty (k := 0) (by decide) (first 0)
      have hbefore := building_run first (Nat.le_refl 7)
      have hresumable : Resumable (building ++ migration005.take j) ↔ _ :=
        resumable_append_iff (hlater j) (by decide) (by decide) (by decide)
      have hlength : building.length = 7 := rfl
      have hiff := resumed_behind_iff hpending hstatements hbefore supported_built rfl rfl second j
      rw [hstatements, ← hlength, List.take_length_add_append, hresumable]
      exact hiff
  · obtain ⟨d₁, hfirst, h₁, hcreated, hrows⟩ := h.created (first 0)
    have hpending := pending_of_supported h₁ hfirst
    have hstatements := upStatements_of_supported h
    have hbefore : runAll first 0 d [createSchemaMigrations] = some d₁ := runAll_cons hfirst
    cases k with
    | zero =>
      rw [resumed, stopped_at_once]
      refine iff_of_true (up_of_supported h second) ?_
      rw [List.take_zero]
      exact ⟨List.not_mem_nil.elim, List.not_mem_nil.elim⟩
    | succ j =>
      have hresumable : Resumable ([createSchemaMigrations] ++ migration005.take j) ↔ _ :=
        resumable_append_iff (hlater j) (by decide) (by decide) (by decide)
      have hiff := resumed_behind_iff hpending hstatements hbefore h₁ hcreated hrows second j
      rw [List.length_singleton, Nat.add_comm] at hiff
      rw [hiff, hstatements, List.singleton_append, List.take_succ_cons, ← List.singleton_append,
        hresumable]

end Resumed

def firstLink : Row Name
  | .id => .int 1
  | .code => text "first"
  | .originalUrl => text "https://example.com/"
  | .status => text "active"
  | .createdAt => .int 1000
  | .updatedAt => .int 1000
  | _ => .null

def oneLink : Database := fun table =>
  (version19 table).map fun definition =>
    ⟨definition, if table = .shortLinks then [firstLink] else [], 2⟩

theorem supported_oneLink : SupportedV19 oneLink where
  tables := by
    intro table _
    rw [oneLink, Option.map_map]
    exact Option.map_id'
  links := by
    intro t ht
    obtain rfl := Option.some.inj ht
    decide
  migrations := by
    intro t ht
    cases ht

theorem resumed_oneLink :
    (resumed oneLink (fun _ => 2000) (fun _ => 3000) 2).1 = .ok () ∧
      Completed oneLink (resumed oneLink (fun _ => 2000) (fun _ => 3000) 2).2.database := by
  apply (interrupted_up_resumes_iff oneLink (Or.inr supported_oneLink) _ _ 2).mpr
  unfold Resumable
  decide

/-- Stopped behind CREATE TABLE users, which the following run repeats. -/
theorem users_created_twice : SupportedV19 oneLink ∧
    (resumed oneLink (fun _ => 2000) (fun _ => 3000) 3).1 = .error .failed :=
  ⟨supported_oneLink, rfl⟩

end InterruptedMigrations
