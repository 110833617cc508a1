import HaoShortLink.Histories
import Mathlib.Data.Multiset.Filter
import Mathlib.Data.Multiset.Count

/-! The pool of MySQL connections. Every section under the mutex is one step, and so is every
ping, reconnect or statement outside it; connections are numbered in the order of creation. -/
namespace ConnectionPools

/-- A call of getConnection or isHealthy, by what it does next. -/
inductive Call where
  | acquiring (notified : Bool)
  | asleep
  | popped (c : ℕ)
  | lost (c : ℕ)
  | failed (c : ℕ)
  | holding (c : ℕ)
  | probeEntering
  | probeAsleep
  | probeWoken (timedOut : Bool)
  | probing
  deriving DecidableEq

def Call.conn : Call → Option ℕ
  | .popped c | .lost c | .failed c | .holding c => some c
  | _ => none

/-- The background thread, with the connections of its copy that are still to be checked. -/
inductive Checker where
  | resting
  | pinging (conns : List ℕ)
  | reconnecting (c : ℕ) (conns : List ℕ)
  deriving DecidableEq

def Checker.listed : Checker → List ℕ
  | .resting => []
  | .pinging conns => conns
  | .reconnecting c conns => c :: conns

structure Pool where
  initialized : Bool
  created : ℕ
  connections : List ℕ
  calls : Multiset Call
  checker : Checker
  deriving DecidableEq

def fresh : Pool := ⟨false, 0, [], 0, .resting⟩

/-- The loop of init; each entry says whether its createConnection returns or throws. -/
def pushConnections (s : Pool) : List Bool → Bool × Pool
  | [] => (true, s)
  | false :: _ => (false, s)
  | true :: opens =>
    pushConnections
      { s with created := s.created + 1, connections := s.connections ++ [s.created] } opens

def init (s : Pool) (opens : List Bool) : Bool × Pool :=
  if s.initialized then (true, s)
  else
    match pushConnections s opens with
    | (true, s) => (true, { s with initialized := true })
    | (false, s) => (false, s)

inductive Ping where
  | alive
  | lost
  | raised
  deriving DecidableEq

/-- The sleeper that notify_one wakes. -/
inductive Woken where
  | nobody
  | caller
  | probe
  deriving DecidableEq

inductive Event where
  | getConnection
  | acquire (notified : Bool)
  | spurious
  | ping (c : ℕ) (answer : Ping)
  | reconnect (c : ℕ) (returns : Bool)
  | statement (c : ℕ)
  | release (c : ℕ) (woken : Woken)
  | rethrow (c : ℕ) (woken : Woken)
  | isHealthy
  | probeEnter
  | probeTimeout
  | probeSpurious
  | probeWake (timedOut : Bool)
  | probeAnswer
  | snapshot
  | checkPing (c : ℕ) (answer : Ping)
  | checkReconnect (c : ℕ) (returns : Bool)
  | checkRest
  deriving DecidableEq

/-- One of the calls in state t moves; the step sees the other calls. -/
def Pool.advance (s : Pool) (t : Call) (step : Multiset Call → Option Pool) : Option Pool :=
  if t ∈ s.calls then step (s.calls.erase t) else none

def notifyOne (calls : Multiset Call) : Woken → Option (Multiset Call)
  | .nobody => if .asleep ∈ calls ∨ .probeAsleep ∈ calls then none else some calls
  | .caller =>
    if .asleep ∈ calls then some (.acquiring true ::ₘ calls.erase .asleep) else none
  | .probe =>
    if .probeAsleep ∈ calls then some (.probeWoken false ::ₘ calls.erase .probeAsleep) else none

/-- connections_.push(conn); cv_.notify_one(), in the deleter and in the handler alike. -/
def Pool.push (s : Pool) (c : ℕ) (woken : Woken) (rest : Multiset Call) : Option Pool :=
  (notifyOne rest woken).map fun calls =>
    { s with connections := s.connections ++ [c], calls := calls }

def afterPing (c : ℕ) : Ping → Call
  | .alive => .holding c
  | .lost => .lost c
  | .raised => .failed c

def next (s : Pool) : Event → Option Pool
  | .getConnection => some { s with calls := .acquiring false ::ₘ s.calls }
  | .acquire notified => s.advance (.acquiring notified) fun rest =>
    match s.connections with
    | [] => some { s with calls := if s.initialized then .asleep ::ₘ rest else rest }
    | c :: cs => some { s with connections := cs, calls := .popped c ::ₘ rest }
  | .spurious => s.advance .asleep fun rest => some { s with calls := .acquiring false ::ₘ rest }
  | .ping c answer => s.advance (.popped c) fun rest =>
    some { s with calls := afterPing c answer ::ₘ rest }
  | .reconnect c returns => s.advance (.lost c) fun rest =>
    some { s with calls := (if returns then .holding c else .failed c) ::ₘ rest }
  | .statement c => s.advance (.holding c) fun _ => some s
  | .release c woken => s.advance (.holding c) (s.push c woken)
  | .rethrow c woken => s.advance (.failed c) (s.push c woken)
  | .isHealthy => some { s with calls := .probeEntering ::ₘ s.calls }
  | .probeEnter => s.advance .probeEntering fun rest =>
    if !s.initialized then some { s with calls := rest }
    else if s.connections = [] then some { s with calls := .probeAsleep ::ₘ rest }
    else some { s with calls := .probing ::ₘ rest }
  | .probeTimeout => s.advance .probeAsleep fun rest =>
    some { s with calls := .probeWoken true ::ₘ rest }
  | .probeSpurious => s.advance .probeAsleep fun rest =>
    some { s with calls := .probeWoken false ::ₘ rest }
  | .probeWake timedOut => s.advance (.probeWoken timedOut) fun rest =>
    if s.connections ≠ [] then some { s with calls := .probing ::ₘ rest }
    else if timedOut then some { s with calls := rest }
    else some { s with calls := .probeAsleep ::ₘ rest }
  -- the probe runs on a connection of its own
  | .probeAnswer => s.advance .probing fun rest => some { s with calls := rest }
  | .snapshot =>
    match s.checker, s.connections with
    | .resting, [] => some s
    | .resting, c :: cs => some { s with checker := .pinging (c :: cs) }
    | _, _ => none
  | .checkPing c answer =>
    match s.checker with
    | .pinging (c' :: conns) =>
      if c' = c then
        some { s with
          checker := match answer with
            | .alive => .pinging conns
            | .lost => .reconnecting c conns
            | .raised => .resting }
      else none
    | _ => none
  | .checkReconnect c _ =>
    match s.checker with
    | .reconnecting c' conns => if c' = c then some { s with checker := .pinging conns } else none
    | _ => none
  | .checkRest => if s.checker = .pinging [] then some { s with checker := .resting } else none

def Step (s : Pool) (e : Event) (s' : Pool) : Prop := next s e = some s'

theorem Pool.advance_eq_some {s s' : Pool} {t : Call} {step : Multiset Call → Option Pool} :
    s.advance t step = some s' ↔ ∃ rest, s.calls = t ::ₘ rest ∧ step rest = some s' :=
  Histories.advance_eq_some

theorem push_eq_some {s s' : Pool} {c : ℕ} {woken : Woken} {rest : Multiset Call} :
    s.push c woken rest = some s' ↔ ∃ calls, notifyOne rest woken = some calls ∧
      { s with connections := s.connections ++ [c], calls := calls } = s' := by
  rw [Pool.push, Option.map_eq_some_iff]

theorem notifyOne_cases {rest calls : Multiset Call} {woken : Woken}
    (h : notifyOne rest woken = some calls) :
    (woken = .nobody ∧ .asleep ∉ rest ∧ calls = rest) ∨
    (∃ others, woken = .caller ∧ rest = .asleep ::ₘ others ∧
      calls = .acquiring true ::ₘ others) ∨
    ∃ others, woken = .probe ∧ rest = .probeAsleep ::ₘ others ∧
      calls = .probeWoken false ::ₘ others := by
  cases woken with
  | nobody =>
    simp only [notifyOne, Option.ite_none_left_eq_some, not_or, Option.some.injEq] at h
    exact .inl ⟨rfl, h.1.1, h.2.symm⟩
  | caller =>
    simp only [notifyOne, Option.ite_none_right_eq_some, Option.some.injEq] at h
    exact .inr (.inl ⟨_, rfl, (Multiset.cons_erase h.1).symm, h.2.symm⟩)
  | probe =>
    simp only [notifyOne, Option.ite_none_right_eq_some, Option.some.injEq] at h
    exact .inr (.inr ⟨_, rfl, (Multiset.cons_erase h.1).symm, h.2.symm⟩)

def held (calls : Multiset Call) : Multiset ℕ := calls.filterMap Call.conn

theorem held_cons_none {t : Call} (h : t.conn = none) (calls : Multiset Call) :
    held (t ::ₘ calls) = held calls :=
  Multiset.filterMap_cons_none t calls h

theorem held_cons_some {t : Call} {c : ℕ} (h : t.conn = some c) (calls : Multiset Call) :
    held (t ::ₘ calls) = c ::ₘ held calls :=
  Multiset.filterMap_cons_some Call.conn t calls h

theorem held_notifyOne {rest calls : Multiset Call} {woken : Woken}
    (h : notifyOne rest woken = some calls) : held calls = held rest := by
  rcases notifyOne_cases h with ⟨-, -, rfl⟩ | ⟨others, -, rfl, rfl⟩ | ⟨others, -, rfl, rfl⟩
  · rfl
  · rw [held_cons_none rfl, held_cons_none rfl]
  · rw [held_cons_none rfl, held_cons_none rfl]

/-- The sleeper that a step wakes, where it ends with notify_one. -/
def Event.wakes : Event → Option Woken
  | .release _ woken | .rethrow _ woken => some woken
  | _ => none

inductive Change (s s' : Pool) (e : Event) : Prop where
  | quiet (before after rest : Multiset Call) : e.wakes = none →
      s.calls = before + rest → s'.calls = after + rest → s'.connections = s.connections →
      held after = held before → .asleep ∉ after → (∀ b, .acquiring b ∉ before) → Change s s' e
  | waits (notified : Bool) (rest : Multiset Call) : e = .acquire notified →
      s.connections = [] → s'.connections = [] → s.calls = .acquiring notified ::ₘ rest →
      s'.calls = .asleep ::ₘ rest ∨ s'.calls = rest → Change s s' e
  | pops (notified : Bool) (rest : Multiset Call) (c : ℕ) : e = .acquire notified →
      s.connections = c :: s'.connections → s.calls = .acquiring notified ::ₘ rest →
      s'.calls = .popped c ::ₘ rest → Change s s' e
  | pushes (t : Call) (rest : Multiset Call) (c : ℕ) (woken : Woken) : e.wakes = some woken →
      t.conn = some c → s.calls = t ::ₘ rest → notifyOne rest woken = some s'.calls →
      s'.connections = s.connections ++ [c] → Change s s' e

theorem change_advance {s s' : Pool} {e : Event} {t : Call} {step : Multiset Call → Option Pool}
    (after : Multiset Call) (h : s.advance t step = some s') (he : e.wakes = none)
    (hstep : ∀ rest, step rest = some s' →
      s'.connections = s.connections ∧ s'.calls = after + rest)
    (hheld : held after = held {t}) (hsleep : .asleep ∉ after)
    (ht : ∀ b, t ≠ .acquiring b) : Change s s' e := by
  obtain ⟨rest, hcalls, h⟩ := Pool.advance_eq_some.mp h
  obtain ⟨hconns, hafter⟩ := hstep rest h
  refine .quiet {t} after rest he hcalls hafter hconns hheld hsleep ?_
  intro b hmem
  exact ht b (Multiset.mem_singleton.mp hmem).symm

theorem change_push {s s' : Pool} {e : Event} {t : Call} {c : ℕ} {woken : Woken}
    (h : s.advance t (s.push c woken) = some s') (he : e.wakes = some woken)
    (ht : t.conn = some c) : Change s s' e := by
  obtain ⟨rest, hcalls, h⟩ := Pool.advance_eq_some.mp h
  obtain ⟨calls, hnotify, rfl⟩ := push_eq_some.mp h
  exact .pushes t rest c woken he ht hcalls hnotify rfl

theorem change_same {s s' : Pool} {e : Event} (he : e.wakes = none)
    (hconns : s'.connections = s.connections) (hcalls : s'.calls = s.calls) : Change s s' e :=
  .quiet 0 0 s.calls he (Multiset.zero_add _).symm (hcalls.trans (Multiset.zero_add _).symm)
    hconns rfl (Multiset.notMem_zero _) fun _ => Multiset.notMem_zero _

theorem change_acquire {s s' : Pool} {notified : Bool} (h : next s (.acquire notified) = some s') :
    Change s s' (.acquire notified) := by
  simp only [next] at h
  obtain ⟨rest, hcalls, h⟩ := Pool.advance_eq_some.mp h
  cases hconns : s.connections with
  | nil =>
    rw [hconns] at h
    obtain rfl := Option.some.inj h
    refine .waits notified rest rfl hconns rfl hcalls ?_
    cases s.initialized
    · exact .inr rfl
    · exact .inl rfl
  | cons c cs =>
    rw [hconns] at h
    obtain rfl := Option.some.inj h
    exact .pops notified rest c rfl hconns hcalls rfl

/-- A step of the background thread leaves the queue and the calls alone. -/
theorem change_checker {s s' : Pool} {e : Event} (h : next s e = some s')
    (he : e = .snapshot ∨ (∃ c answer, e = .checkPing c answer) ∨
      (∃ c returns, e = .checkReconnect c returns) ∨ e = .checkRest) :
    s'.connections = s.connections ∧ s'.calls = s.calls := by
  rcases he with rfl | ⟨c, answer, rfl⟩ | ⟨c, returns, rfl⟩ | rfl
  all_goals
    simp only [next] at h
    grind

theorem next_change {s s' : Pool} {e : Event} (h : next s e = some s') : Change s s' e := by
  cases e with
  | getConnection =>
    obtain rfl := Option.some.inj h
    exact .quiet 0 {.acquiring false} s.calls rfl (Multiset.zero_add _).symm rfl rfl rfl
      (by decide) fun _ => Multiset.notMem_zero _
  | isHealthy =>
    obtain rfl := Option.some.inj h
    exact .quiet 0 {.probeEntering} s.calls rfl (Multiset.zero_add _).symm rfl rfl rfl
      (by decide) fun _ => Multiset.notMem_zero _
  | acquire notified => exact change_acquire h
  | spurious =>
    simp only [next] at h
    refine change_advance {.acquiring false} h rfl ?_ rfl (by decide) (by simp)
    rintro rest ⟨⟩
    exact ⟨rfl, rfl⟩
  | ping c answer =>
    simp only [next] at h
    refine change_advance {afterPing c answer} h rfl ?_ (by cases answer <;> rfl)
      (by cases answer <;> simp [afterPing]) (by simp)
    rintro rest ⟨⟩
    exact ⟨rfl, rfl⟩
  | reconnect c returns =>
    simp only [next] at h
    refine change_advance {if returns then .holding c else .failed c} h rfl ?_
      (by cases returns <;> rfl) (by cases returns <;> simp) (by simp)
    rintro rest ⟨⟩
    exact ⟨rfl, rfl⟩
  | statement c =>
    simp only [next] at h
    obtain ⟨rest, hcalls, h⟩ := Pool.advance_eq_some.mp h
    obtain rfl := Option.some.inj h
    exact change_same rfl rfl rfl
  | release c woken =>
    simp only [next] at h
    exact change_push h rfl rfl
  | rethrow c woken =>
    simp only [next] at h
    exact change_push h rfl rfl
  | probeEnter =>
    simp only [next] at h
    refine change_advance (if !s.initialized then 0 else if s.connections = [] then
      {.probeAsleep} else {.probing}) h rfl ?_ ?_ ?_ (by simp)
    · intro rest hrest
      split_ifs at hrest ⊢ <;> cases hrest
      · exact ⟨rfl, (Multiset.zero_add _).symm⟩
      · exact ⟨rfl, rfl⟩
      · exact ⟨rfl, rfl⟩
    · split_ifs <;> rfl
    · split_ifs <;> decide
  | probeTimeout =>
    simp only [next] at h
    refine change_advance {.probeWoken true} h rfl ?_ rfl (by decide) (by simp)
    rintro rest ⟨⟩
    exact ⟨rfl, rfl⟩
  | probeSpurious =>
    simp only [next] at h
    refine change_advance {.probeWoken false} h rfl ?_ rfl (by decide) (by simp)
    rintro rest ⟨⟩
    exact ⟨rfl, rfl⟩
  | probeWake timedOut =>
    simp only [next] at h
    refine change_advance (if s.connections ≠ [] then {.probing} else if timedOut then 0 else
      {.probeAsleep}) h rfl ?_ ?_ ?_ (by simp)
    · intro rest hrest
      split_ifs at hrest ⊢ <;> cases hrest
      · exact ⟨rfl, rfl⟩
      · exact ⟨rfl, (Multiset.zero_add _).symm⟩
      · exact ⟨rfl, rfl⟩
    · split_ifs <;> rfl
    · split_ifs <;> decide
  | probeAnswer =>
    simp only [next] at h
    refine change_advance 0 h rfl ?_ rfl (by decide) (by simp)
    rintro rest ⟨⟩
    exact ⟨rfl, (Multiset.zero_add _).symm⟩
  | snapshot =>
    obtain ⟨hconns, hcalls⟩ := change_checker h (.inl rfl)
    exact change_same rfl hconns hcalls
  | checkPing c answer =>
    obtain ⟨hconns, hcalls⟩ := change_checker h (.inr (.inl ⟨c, answer, rfl⟩))
    exact change_same rfl hconns hcalls
  | checkReconnect c returns =>
    obtain ⟨hconns, hcalls⟩ := change_checker h (.inr (.inr (.inl ⟨c, returns, rfl⟩)))
    exact change_same rfl hconns hcalls
  | checkRest =>
    obtain ⟨hconns, hcalls⟩ := change_checker h (.inr (.inr (.inr rfl)))
    exact change_same rfl hconns hcalls

def Pool.all (s : Pool) : Multiset ℕ := (s.connections : Multiset ℕ) + held s.calls

theorem next_held {s s' : Pool} {e : Event} (h : next s e = some s') :
    (s'.connections = s.connections ∧ held s'.calls = held s.calls) ∨
    (∃ notified c, e = .acquire notified ∧ s.connections = c :: s'.connections ∧
      held s'.calls = c ::ₘ held s.calls) ∨
    ∃ c, s'.connections = s.connections ++ [c] ∧ held s.calls = c ::ₘ held s'.calls := by
  cases next_change h with
  | quiet before after rest _ hcalls hcalls' hconns hheld _ _ =>
    refine .inl ⟨hconns, ?_⟩
    simp only [held] at hheld ⊢
    rw [hcalls, hcalls', Multiset.filterMap_add, Multiset.filterMap_add, hheld]
  | waits notified rest _ hconns hconns' hcalls hcalls' =>
    refine .inl ⟨hconns'.trans hconns.symm, ?_⟩
    rw [hcalls, held_cons_none rfl]
    rcases hcalls' with hcalls' | hcalls'
    · rw [hcalls', held_cons_none rfl]
    · rw [hcalls']
  | pops notified rest c he hconns hcalls hcalls' =>
    refine .inr (.inl ⟨notified, c, he, hconns, ?_⟩)
    rw [hcalls, hcalls', held_cons_some rfl, held_cons_none rfl]
  | pushes t rest c woken _ ht hcalls hnotify hconns =>
    refine .inr (.inr ⟨c, hconns, ?_⟩)
    rw [hcalls, held_cons_some ht, held_notifyOne hnotify]

theorem next_all {s s' : Pool} {e : Event} (h : next s e = some s') : s'.all = s.all := by
  rcases next_held h with ⟨hconns, hheld⟩ | ⟨_, c, _, hconns, hheld⟩ | ⟨c, hconns, hheld⟩
  · rw [Pool.all, Pool.all, hconns, hheld]
  · rw [Pool.all, Pool.all, hconns, hheld, ← Multiset.cons_coe, Multiset.add_cons,
      Multiset.cons_add]
  · rw [Pool.all, Pool.all, hconns, hheld, ← Multiset.coe_add, Multiset.coe_singleton,
      Multiset.add_assoc, Multiset.singleton_add]

theorem pushConnections_ok {s s' : Pool} {opens : List Bool}
    (h : pushConnections s opens = (true, s')) :
    s' = { s with
      created := s.created + opens.length
      connections := s.connections ++ List.range' s.created opens.length } := by
  induction opens generalizing s with
  | nil =>
    obtain rfl := (Prod.mk.inj h).2
    simp
  | cons o opens ih =>
    cases o with
    | false => cases h
    | true =>
      rw [ih h]
      simp [List.range'_succ, Nat.add_comm, Nat.add_left_comm]

/-- A pool that was initialized holds one new connection for each that was asked for. -/
theorem init_ok {opens : List Bool} {s : Pool} (h : init fresh opens = (true, s)) :
    s = ⟨true, opens.length, List.range opens.length, 0, .resting⟩ := by
  simp only [init, fresh, Bool.false_eq_true, if_false] at h
  split at h
  · next s' hpush =>
    obtain rfl := (Prod.mk.inj h).2
    simp [pushConnections_ok hpush, List.range_eq_range']
  · cases h

theorem all_init {opens : List Bool} {s₀ : Pool} (h : init fresh opens = (true, s₀)) :
    s₀.all = (s₀.connections : Multiset ℕ) := by
  rw [init_ok h]
  exact Multiset.add_zero _

/-- Connections are neither lost nor shared. -/
theorem connections_conserved {opens : List Bool} {s₀ s : Pool} {events : List Event}
    (hinit : init fresh opens = (true, s₀)) (hrun : Histories.Run Step s₀ events s) :
    (s.connections : Multiset ℕ) + held s.calls = (s₀.connections : Multiset ℕ) ∧
      s₀.connections.Nodup ∧ s₀.connections.length = opens.length := by
  refine ⟨?_, ?_, ?_⟩
  · have hall := hrun.invariant (P := fun t => t.all = s₀.all) rfl
      fun s e s' hstep hs => (next_all hstep).trans hs
    exact hall.trans (all_init hinit)
  · rw [init_ok hinit]
    exact List.nodup_range
  · rw [init_ok hinit]
    exact List.length_range

theorem run_of_next {s₀ s : Pool} {events : List Event} (h : events.foldlM next s₀ = some s) :
    Histories.Run Step s₀ events s := Histories.Run.of_foldlM h

theorem path_of_next {s₀ s : Pool} {events : List Event} (h : events.foldlM next s₀ = some s) :
    Histories.Path Step s₀ (Histories.trace next s₀ events) s := Histories.Path.of_foldlM h

/-- Three callers of two connections: one is in use, one is given back after a failure, and one
is on its way to the caller that slept. -/
theorem connections_conserved_demo :
    ∃ s, Histories.Run Step (init fresh [true, true]).2
        [.getConnection, .getConnection, .getConnection, .acquire false, .acquire false,
          .acquire false, .ping 0 .alive, .ping 1 .lost, .reconnect 1 false, .rethrow 1 .caller,
          .acquire true] s ∧
      (s.connections : Multiset ℕ) + held s.calls = ([0, 1] : List ℕ) ∧
      s.calls = {.popped 1, .holding 0} :=
  have hrun := run_of_next rfl
  ⟨_, hrun, (connections_conserved (show init fresh [true, true] = (true, _) from rfl) hrun).1,
    by decide⟩

end ConnectionPools
