import HaoShortLink.Decimals
import Mathlib.Logic.Function.Basic

/-! A Redis database of strings. Times are in milliseconds, and a key with a deadline is there
until the deadline comes. -/
namespace RedisStores

open Cpp

structure Entry where
  value : Bytes
  deadline : Option ℤ
  deriving DecidableEq, Repr

abbrev Store := Bytes → Option Entry

def live (s : Store) (now : ℤ) (key : Bytes) : Option Entry :=
  (s key).filter fun e => e.deadline.all (now < ·)

def get (s : Store) (now : ℤ) (key : Bytes) : Option Bytes := (live s now key).map Entry.value

/-- How far a command gets: it may fail before it runs, or lose the reply. -/
inductive Connection where
  | unreachable
  | replyLost
  | working
  deriving DecidableEq, Repr

def Connection.run {S : Type} (connection : Connection) (command : S → S) (s : S) : S :=
  match connection with
  | .unreachable => s
  | .replyLost | .working => command s

def set (s : Store) (key value : Bytes) : Store := Function.update s key (some ⟨value, none⟩)

/-- For a positive expiry. -/
def setex (s : Store) (now : ℤ) (key : Bytes) (seconds : ℤ) (value : Bytes) : Store :=
  Function.update s key (some ⟨value, some (now + seconds * 1000)⟩)

def del (s : Store) (key : Bytes) : Store := Function.update s key none

/-- A 64-bit integer, spelled as it is printed. -/
def string2ll (b : Bytes) : Option ℤ :=
  let n : ℤ := if b.head? = some 45 then -(Decimals.value b.tail : ℤ) else Decimals.value b
  if signedToDecimal n = b ∧ -2 ^ 63 ≤ n ∧ n < 2 ^ 63 then some n else none

/-- Nothing for an error: the value is no integer, or it is the largest. -/
def incr (s : Store) (now : ℤ) (key : Bytes) : Option (ℤ × Store) :=
  match live s now key with
  | none => some (1, Function.update s key (some ⟨signedToDecimal 1, none⟩))
  | some e =>
    match string2ll e.value with
    | none => none
    | some n =>
      if n = 2 ^ 63 - 1 then none
      else some (n + 1, Function.update s key (some ⟨signedToDecimal (n + 1), e.deadline⟩))

def expire (s : Store) (now : ℤ) (key : Bytes) (seconds : ℤ) : Store :=
  match live s now key with
  | none => s
  | some e =>
    if seconds ≤ 0 then del s key
    else Function.update s key (some { e with deadline := some (now + seconds * 1000) })

/-- In seconds, to the nearest one. -/
def ttl (s : Store) (now : ℤ) (key : Bytes) : ℤ :=
  match live s now key with
  | none => -2
  | some e =>
    match e.deadline with
    | none => -1
    | some deadline => (deadline - now + 500) / 1000

theorem string2ll_toDecimal {n : ℕ} (h : n < 2 ^ 63) : string2ll (toDecimal n) = some (n : ℤ) := by
  obtain ⟨c, digits, hc, hdigit⟩ := Decimals.head_toDecimal n
  have hminus : (toDecimal n).head? ≠ some 45 := by
    rw [hc, List.head?_cons, ne_eq, Option.some.injEq]
    rintro rfl
    cases hdigit
  simp only [string2ll, if_neg hminus, Decimals.value_toDecimal, Decimals.signedToDecimal_natCast,
    true_and]
  rw [if_pos (by omega)]

theorem live_of_deadline {s : Store} {key value : Bytes} {now deadline : ℤ}
    (h : s key = some ⟨value, some deadline⟩) :
    live s now key = if now < deadline then some ⟨value, some deadline⟩ else none := by
  rw [live, h, Option.filter_some]
  simp

theorem live_none_mono {s : Store} {key : Bytes} {now later : ℤ} (h : live s now key = none)
    (hle : now ≤ later) : live s later key = none := by
  rw [live, Option.filter_eq_none_iff] at h ⊢
  intro e he hall
  apply h e he
  simp only [Option.all_eq_true, decide_eq_true_eq] at hall ⊢
  exact fun deadline hd => Int.lt_of_le_of_lt hle (hall deadline hd)

end RedisStores
