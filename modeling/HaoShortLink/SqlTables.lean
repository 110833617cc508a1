import Mathlib.Data.Int.Order.Basic
import Mathlib.Data.List.Basic
import Mathlib.Logic.Function.Basic

/-! Tables of a relational database with their definitions, and the statements that build and change
them. A statement takes effect as a whole or fails and changes nothing. -/
namespace SqlTables

inductive Value where
  | null
  | int (n : ℤ)
  | text (b : List UInt8)
  deriving DecidableEq

/-- What a column gets that an INSERT does not name. -/
inductive Default where
  | absent
  | value (v : Value)
  | currentTimestamp
  | autoIncrement
  deriving DecidableEq

/-- N are the names of tables, columns and keys, K the column types. -/
structure Column (N K : Type) where
  name : N
  type : K
  nullable : Bool := false
  default : Default := .absent
  onUpdateCurrentTimestamp : Bool := false
  deriving DecidableEq

/-- The primary key has no name. -/
structure Key (N : Type) where
  name : Option N
  columns : List N
  unique : Bool
  deriving DecidableEq

inductive Check (N : Type) where
  | oneOf (column : N) (values : List Value)
  | atLeast (column : N) (bound : ℤ)
  | ordered (low high : N)
  | multipleOf (column : N) (n : ℤ)
  deriving DecidableEq

structure ForeignKey (N : Type) where
  name : N
  column : N
  parent : N
  referenced : N
  cascades : Bool := false
  deriving DecidableEq

structure Definition (N K : Type) where
  columns : List (Column N K)
  keys : List (Key N)
  checks : List (Check N) := []
  foreignKeys : List (ForeignKey N) := []
  deriving DecidableEq

abbrev Row (N : Type) := N → Value

structure Table (N K : Type) where
  definition : Definition N K
  rows : List (Row N) := []
  nextId : ℕ := 1

abbrev Database (N K : Type) := N → Option (Table N K)

inductive Alteration (N K : Type) where
  /-- Placed behind another column, if one is named. -/
  | addColumn (column : Column N K) (after : Option N)
  | modifyColumn (column : Column N K)
  | addKey (key : Key N)
  | addCheck (check : Check N)
  | addForeignKey (key : ForeignKey N)
  deriving DecidableEq

inductive Scalar (N : Type) where
  | value (v : Value)
  /-- SELECT column FROM table WHERE key = v -/
  | select (column table key : N) (v : Value)
  deriving DecidableEq

inductive Statement (N K : Type) where
  | createTable (ifNotExists : Bool) (table : N) (definition : Definition N K)
  | alterTable (table : N) (alterations : List (Alteration N K))
  | insert (ignore : Bool) (table : N) (columns : List N) (rows : List (List Value))
  /-- SET column = value WHERE column IS NULL -/
  | updateNull (table column : N) (value : Scalar N)
  deriving DecidableEq

variable {N K : Type}

/-- A check that meets NULL does not fail. -/
def Check.allows (row : Row N) : Check N → Bool
  | .oneOf c values => row c == .null || values.contains (row c)
  | .atLeast c bound =>
    match row c with
    | .int n => decide (bound ≤ n)
    | _ => true
  | .ordered low high =>
    match row low, row high with
    | .int m, .int n => decide (m ≤ n)
    | _, _ => true
  | .multipleOf c n =>
    match row c with
    | .int m => decide (m % n = 0)
    | _ => true

/-- Two rows that a unique key does not admit together. -/
def Key.Clash (k : Key N) (a b : Row N) : Prop := ∀ c ∈ k.columns, a c = b c ∧ a c ≠ .null

def rowsOf (d : Database N K) (table : N) : List (Row N) := ((d table).map Table.rows).getD []

/-- The rows keep to the definition. -/
structure Valid (d : Database N K) (t : Table N K) : Prop where
  notNull : ∀ row ∈ t.rows, ∀ c ∈ t.definition.columns, c.nullable = false → row c.name ≠ .null
  checks : ∀ row ∈ t.rows, ∀ check ∈ t.definition.checks, check.allows row = true
  unique : ∀ k ∈ t.definition.keys, k.unique = true → t.rows.Pairwise fun a b => ¬ k.Clash a b
  references : ∀ row ∈ t.rows, ∀ f ∈ t.definition.foreignKeys, row f.column = .null ∨
    ∃ parent ∈ rowsOf d f.parent, parent f.referenced = row f.column

instance (k : Key N) (a b : Row N) : Decidable (k.Clash a b) :=
  inferInstanceAs (Decidable (∀ c ∈ k.columns, _ ∧ _))

instance (d : Database N K) (t : Table N K) : Decidable (Valid d t) :=
  decidable_of_iff ((∀ row ∈ t.rows, ∀ c ∈ t.definition.columns, c.nullable = false →
      row c.name ≠ .null) ∧
    (∀ row ∈ t.rows, ∀ check ∈ t.definition.checks, check.allows row = true) ∧
    (∀ k ∈ t.definition.keys, k.unique = true → t.rows.Pairwise fun a b => ¬ k.Clash a b) ∧
    ∀ row ∈ t.rows, ∀ f ∈ t.definition.foreignKeys, row f.column = .null ∨
      ∃ parent ∈ rowsOf d f.parent, parent f.referenced = row f.column)
    ⟨fun h => ⟨h.1, h.2.1, h.2.2.1, h.2.2.2⟩,
      fun h => ⟨h.notNull, h.checks, h.unique, h.references⟩⟩

theorem valid_of_no_rows {d : Database N K} {t : Table N K} (h : t.rows = []) : Valid d t where
  notNull := by simp [h]
  checks := by simp [h]
  unique := by simp [h]
  references := by simp [h]

theorem Valid.of_no_references {d d' : Database N K} {t : Table N K} (h : Valid d t)
    (hforeign : t.definition.foreignKeys = []) : Valid d' t where
  notNull := h.notNull
  checks := h.checks
  unique := h.unique
  references := by simp [hforeign]

/-- Rows may change in the columns that checks and unique keys leave alone. -/
theorem Valid.map_rows {d d' : Database N K} {t t' : Table N K} {g : Row N → Row N}
    (h : Valid d t) (hrows : t'.rows = t.rows.map g)
    (hnotNull : ∀ row ∈ t.rows, ∀ c ∈ t'.definition.columns, c.nullable = false →
      g row c.name ≠ .null)
    (hchecks : ∀ check ∈ t'.definition.checks, check ∈ t.definition.checks ∧
      ∀ row, check.allows (g row) = check.allows row)
    (hkeys : ∀ k ∈ t'.definition.keys, k.unique = true → k ∈ t.definition.keys ∧
      ∀ c ∈ k.columns, ∀ row, g row c = row c)
    (hreferences : ∀ row ∈ t.rows, ∀ f ∈ t'.definition.foreignKeys,
      ∃ parent ∈ rowsOf d' f.parent, parent f.referenced = g row f.column) : Valid d' t' where
  notNull := by
    rw [hrows]
    intro row hrow
    obtain ⟨old, hold, rfl⟩ := List.mem_map.mp hrow
    exact hnotNull old hold
  checks := by
    rw [hrows]
    intro row hrow check hcheck
    obtain ⟨old, hold, rfl⟩ := List.mem_map.mp hrow
    obtain ⟨hmem, hsame⟩ := hchecks check hcheck
    rw [hsame]
    exact h.checks old hold check hmem
  unique := by
    intro k hk hunique
    obtain ⟨hmem, hsame⟩ := hkeys k hk hunique
    rw [hrows, List.pairwise_map]
    apply (h.unique k hmem hunique).imp
    intro a b hab hclash
    apply hab
    intro c hc
    have hc' := hclash c hc
    rwa [hsame c hc a, hsame c hc b] at hc'
  references := by
    rw [hrows]
    intro row hrow f hf
    obtain ⟨old, hold, rfl⟩ := List.mem_map.mp hrow
    exact Or.inr (hreferences old hold f hf)

variable [DecidableEq N]

def Definition.column (definition : Definition N K) (c : N) : Option (Column N K) :=
  definition.columns.find? fun column => decide (column.name = c)

def insertAfter (column : Column N K) (after : Option N) (columns : List (Column N K)) :
    List (Column N K) :=
  match after with
  | none => columns ++ [column]
  | some c => columns.takeWhile (fun column => decide (column.name ≠ c)) ++
      match columns.dropWhile fun column => decide (column.name ≠ c) with
      | [] => [column]
      | found :: rest => found :: column :: rest

def Default.toValue (nextId : ℕ) (now : ℤ) : Default → Value
  | .absent => .null
  | .value v => v
  | .currentTimestamp => .int now
  | .autoIncrement => .int nextId

/-- A foreign key needs a key of its parent that begins with the column it refers to. -/
def ForeignKey.supported (f : ForeignKey N) (d : Database N K) : Bool :=
  (d f.parent).any fun parent =>
    parent.definition.keys.any fun k => decide (k.columns.head? = some f.referenced)

def Table.alter (d : Database N K) (now : ℤ) (t : Table N K) :
    Alteration N K → Option (Table N K)
  | .addColumn column after =>
    if (t.definition.column column.name).isSome then none
    else some { t with
      definition := { t.definition with
        columns := insertAfter column after t.definition.columns }
      rows := t.rows.map fun row =>
        Function.update row column.name (column.default.toValue t.nextId now) }
  | .modifyColumn column =>
    if (t.definition.column column.name).isNone then none
    else some { t with definition := { t.definition with
      columns := t.definition.columns.map fun old =>
        if old.name = column.name then column else old } }
  | .addKey key =>
    if t.definition.keys.any fun old => decide (old.name = key.name) then none
    else some { t with definition := { t.definition with keys := t.definition.keys ++ [key] } }
  | .addCheck check =>
    some { t with definition := { t.definition with checks := t.definition.checks ++ [check] } }
  | .addForeignKey f =>
    if t.definition.foreignKeys.any (fun old => decide (old.name = f.name)) || !f.supported d
    then none
    else some { t with definition := { t.definition with
      foreignKeys := t.definition.foreignKeys ++ [f] } }

def newRow (t : Table N K) (now : ℤ) (columns : List N) (values : List Value) : Row N := fun c =>
  match (columns.zip values).lookup c with
  | some v => v
  | none =>
    ((t.definition.column c).map fun column => column.default.toValue t.nextId now).getD .null

def clashes (t : Table N K) (row : Row N) : Bool :=
  t.definition.keys.any fun k => k.unique && t.rows.any fun old => decide (k.Clash old row)

def Table.insert (ignore : Bool) (now : ℤ) (columns : List N) (t : Table N K)
    (values : List Value) : Table N K :=
  let row := newRow t now columns values
  if ignore && clashes t row then t
  else { t with rows := t.rows ++ [row], nextId := t.nextId + 1 }

/-- A subquery with several rows is an error. -/
def Scalar.eval (d : Database N K) : Scalar N → Option Value
  | .value v => some v
  | .select column table key v =>
    match (rowsOf d table).filter fun row => decide (row key = v) with
    | [] => some .null
    | [row] => some (row column)
    | _ => none

/-- Columns that follow updates get the time in a row that changes. -/
def Table.setNull (now : ℤ) (column : N) (v : Value) (t : Table N K) : Table N K :=
  { t with rows := t.rows.map fun row =>
      if row column = .null ∧ v ≠ .null then fun c =>
        if c = column then v
        else if (t.definition.column c).any Column.onUpdateCurrentTimestamp then .int now
        else row c
      else row }

/-- The table takes the place of the one under its name if its rows keep to its definition. -/
def store (d : Database N K) (name : N) (t : Table N K) : Option (Database N K) :=
  if Valid (Function.update d name (some t)) t then some (Function.update d name (some t))
  else none

def Statement.run (now : ℤ) (d : Database N K) : Statement N K → Option (Database N K)
  | .createTable ifNotExists name definition =>
    match d name with
    | some _ => if ifNotExists then some d else none
    | none =>
      if definition.foreignKeys.all (·.supported d) then
        some (Function.update d name (some ⟨definition, [], 1⟩))
      else none
  | .alterTable name alterations => do
    let t ← d name
    let t ← alterations.foldlM (Table.alter d now) t
    store d name t
  | .insert ignore name columns rows => do
    let t ← d name
    store d name (rows.foldl (Table.insert ignore now columns) t)
  | .updateNull name column value => do
    let t ← d name
    let v ← value.eval d
    store d name (t.setNull now column v)

def Statement.table : Statement N K → N
  | .createTable _ name _ => name
  | .alterTable name _ => name
  | .insert _ name _ _ => name
  | .updateNull name _ _ => name

section Run

variable {now : ℤ} {d d' : Database N K} {statement : Statement N K} {name : N} {t : Table N K}

theorem store_eq_some (h : store d name t = some d') : d' = Function.update d name (some t) := by
  unfold store at h
  split at h
  · exact (Option.some.inj h).symm
  · cases h

theorem store_valid (h : Valid (Function.update d name (some t)) t) :
    store d name t = some (Function.update d name (some t)) := if_pos h

/-- A statement leaves its table defined and is about no other. -/
theorem run_update (h : statement.run now d = some d') :
    ∃ t, d' = Function.update d statement.table (some t) := by
  cases statement with
  | createTable ifNotExists name definition =>
    simp only [Statement.run] at h
    cases hname : d name with
    | some t =>
      simp only [hname] at h
      split at h
      · cases h
        exact ⟨t, by rw [Statement.table, ← hname, Function.update_eq_self]⟩
      · cases h
    | none =>
      simp only [hname] at h
      split at h
      · exact ⟨_, (Option.some.inj h).symm⟩
      · cases h
  | alterTable name alterations =>
    obtain ⟨t, -, h⟩ := Option.bind_eq_some_iff.mp h
    obtain ⟨t', -, h⟩ := Option.bind_eq_some_iff.mp h
    exact ⟨t', store_eq_some h⟩
  | insert ignore name columns rows =>
    obtain ⟨t, -, h⟩ := Option.bind_eq_some_iff.mp h
    exact ⟨_, store_eq_some h⟩
  | updateNull name column value =>
    obtain ⟨t, -, h⟩ := Option.bind_eq_some_iff.mp h
    obtain ⟨v, -, h⟩ := Option.bind_eq_some_iff.mp h
    exact ⟨_, store_eq_some h⟩

theorem run_other (h : statement.run now d = some d') (hname : name ≠ statement.table) :
    d' name = d name := by
  obtain ⟨t, rfl⟩ := run_update h
  exact Function.update_of_ne hname _ _

theorem run_exists (h : statement.run now d = some d') (hname : (d name).isSome = true) :
    (d' name).isSome = true := by
  obtain ⟨t, rfl⟩ := run_update h
  by_cases hsame : name = statement.table
  · rw [hsame, Function.update_self]
    rfl
  · rwa [Function.update_of_ne hsame]

theorem run_table (h : statement.run now d = some d') : (d' statement.table).isSome = true := by
  obtain ⟨t, rfl⟩ := run_update h
  rw [Function.update_self]
  rfl

theorem run_alter {t' : Table N K} {alterations : List (Alteration N K)} (h : d name = some t)
    (halter : alterations.foldlM (Table.alter d now) t = some t')
    (hvalid : Valid (Function.update d name (some t')) t') :
    (Statement.alterTable name alterations).run now d =
      some (Function.update d name (some t')) := by
  simp only [Statement.run, h, Option.bind_eq_bind, Option.bind_some, halter]
  exact store_valid hvalid

theorem run_insert {ignore : Bool} {columns : List N} {rows : List (List Value)} {t' : Table N K}
    (h : d name = some t) (hinsert : rows.foldl (Table.insert ignore now columns) t = t')
    (hvalid : Valid (Function.update d name (some t')) t') :
    (Statement.insert ignore name columns rows).run now d =
      some (Function.update d name (some t')) := by
  simp only [Statement.run, h, Option.bind_eq_bind, Option.bind_some, hinsert]
  exact store_valid hvalid

theorem run_updateNull {column : N} {value : Scalar N} {v : Value} {t' : Table N K}
    (h : d name = some t) (hvalue : value.eval d = some v) (hset : t.setNull now column v = t')
    (hvalid : Valid (Function.update d name (some t')) t') :
    (Statement.updateNull name column value).run now d =
      some (Function.update d name (some t')) := by
  simp only [Statement.run, h, hvalue, Option.bind_eq_bind, Option.bind_some, hset]
  exact store_valid hvalid

theorem run_create_existing {definition : Definition N K} (h : d name = some t) :
    (Statement.createTable true name definition).run now d = some d := by
  simp only [Statement.run, h, if_true]

theorem run_create_refused {definition : Definition N K} (h : (d name).isSome = true) :
    (Statement.createTable false name definition).run now d = none := by
  obtain ⟨t, ht⟩ := Option.isSome_iff_exists.mp h
  simp only [Statement.run, ht, Bool.false_eq_true, if_false]

theorem run_create_new {definition : Definition N K} (ifNotExists : Bool) (h : d name = none)
    (hparents : definition.foreignKeys.all (·.supported d) = true) :
    (Statement.createTable ifNotExists name definition).run now d =
      some (Function.update d name (some ⟨definition, [], 1⟩)) := by
  simp only [Statement.run, h, hparents, if_true]

end Run

/-- Several statements, the n-th of them at the time clock n. -/
def runAll (clock : ℕ → ℤ) : ℕ → Database N K → List (Statement N K) → Option (Database N K)
  | _, d, [] => some d
  | i, d, statement :: statements =>
    (statement.run (clock i) d).bind fun d' => runAll clock (i + 1) d' statements

section RunAll

variable {clock : ℕ → ℤ} {i : ℕ} {d d' : Database N K} {name : N}
  {statements : List (Statement N K)}

theorem runAll_cons {statement : Statement N K} (h : statement.run (clock i) d = some d') :
    runAll clock i d (statement :: statements) = runAll clock (i + 1) d' statements := by
  rw [runAll, h]
  rfl

theorem runAll_append (more : List (Statement N K)) :
    runAll clock i d (statements ++ more) = (runAll clock i d statements).bind fun d' =>
      runAll clock (i + statements.length) d' more := by
  induction statements generalizing i d with
  | nil => rfl
  | cons statement statements ih =>
    rw [List.cons_append, runAll, runAll, Option.bind_assoc]
    congr 1
    funext d'
    rw [ih, List.length_cons, Nat.add_comm statements.length, Nat.add_assoc]

theorem runAll_exists (h : runAll clock i d statements = some d')
    (hname : (d name).isSome = true) : (d' name).isSome = true := by
  induction statements generalizing i d with
  | nil =>
    cases h
    exact hname
  | cons statement statements ih =>
    obtain ⟨d₁, hfirst, hrest⟩ := Option.bind_eq_some_iff.mp h
    exact ih hrest (run_exists hfirst hname)

theorem runAll_table {statement : Statement N K} (h : runAll clock i d statements = some d')
    (hmem : statement ∈ statements) : (d' statement.table).isSome = true := by
  induction statements generalizing i d with
  | nil => cases hmem
  | cons head statements ih =>
    obtain ⟨d₁, hfirst, hrest⟩ := Option.bind_eq_some_iff.mp h
    rcases List.mem_cons.mp hmem with rfl | hmem
    · exact runAll_exists hrest (run_table hfirst)
    · exact ih hrest hmem

theorem runAll_other (h : runAll clock i d statements = some d')
    (hname : ∀ statement ∈ statements, name ≠ statement.table) : d' name = d name := by
  induction statements generalizing i d with
  | nil =>
    cases h
    rfl
  | cons statement statements ih =>
    obtain ⟨d₁, hfirst, hrest⟩ := Option.bind_eq_some_iff.mp h
    rw [ih hrest fun x hx => hname x (List.mem_cons_of_mem _ hx)]
    exact run_other hfirst (hname statement (by simp))

end RunAll

end SqlTables
