import HaoShortLink.AccessEventConsumer

/-! A group of access event consumers, the brokers and the database together: an offset is
committed only after its message left a receipt or an acknowledged dead letter. -/
namespace ConsumerGroup

open Cpp Program Transaction StatisticsSchema AccessStatisticsWriter AccessEvents DeadLetters
open AccessEventConsumer
open JsonValues (JsonLibrary)

structure Record where
  key : Bytes
  payload : Bytes
  deriving DecidableEq, Repr

/-- Offsets are indices into the log. Position, message in flight and unacknowledged dead
letters belong to one consumer process each and die with it. -/
structure Kafka (Tid : Type) where
  log : ℕ → List Record
  committed : ℕ → ℕ
  position : Tid → ℕ → Option ℕ
  inFlight : Tid → Option (ℕ × ℕ)
  outstanding : Tid → List DlqMessage
  deadLetters : List DlqMessage

structure GroupWorld (Tid : Type) where
  sql : World Tid Db Stmt.Reply Unit
  kafka : Kafka Tid

variable {Tid : Type}

abbrev GroupWorld.db (w : GroupWorld Tid) : Db := w.sql.store.db

section Behaviour

variable [DecidableEq Tid]

def GroupWorld.closeSession (w : GroupWorld Tid) (i : Tid) : GroupWorld Tid :=
  { w with sql := ⟨w.sql.store.setSession i none, w.sql.ghost⟩ }

/-- The consumer process is gone: its session, its assignment and its producer queue with it. -/
def GroupWorld.restart (w : GroupWorld Tid) (i : Tid) : GroupWorld Tid :=
  ⟨⟨w.sql.store.setSession i none, w.sql.ghost⟩, { w.kafka with
    position := Function.update w.kafka.position i fun _ => none
    inFlight := Function.update w.kafka.inFlight i none
    outstanding := Function.update w.kafka.outstanding i [] }⟩

def delivered (done : List (DlqMessage × ℤ)) : List DlqMessage :=
  (done.filter (·.2 == 0)).map Prod.fst

/-- One call of consumer i. A commit may take effect although its reply is an error; a flush
settles some of the outstanding messages, and all of them if it succeeds. -/
inductive GroupStep (i : Tid) (w : GroupWorld Tid) :
    (op : ConsumerOp) → op.Answer → GroupWorld Tid → Prop
  | sql {op r s} : WorldStep exec (fun _ g => g) i w.sql op r s →
      GroupStep i w (.sql op) r { w with sql := s }
  | reconnect {r} : GroupStep i w .reconnect r (w.closeSession i)
  | reconnectRefused {e} : GroupStep i w .reconnect (.error e) w
  | now {t} : GroupStep i w .now t w
  | sleepFor {ms} : GroupStep i w (.sleepFor ms) () w
  | pollNothing : GroupStep i w .poll .nothing w
  | pollFailure {eof} : GroupStep i w .poll (.failure eof) w
  | pollMessage {p o m} : w.kafka.position i p = some o → (w.kafka.log p)[o]? = some m →
      GroupStep i w .poll (.message ⟨p, o, m.key, m.payload⟩) { w with kafka := { w.kafka with
        position := Function.update w.kafka.position i
          (Function.update (w.kafka.position i) p (some (o + 1)))
        inFlight := Function.update w.kafka.inFlight i (some (p, o)) } }
  | produce {m} : GroupStep i w (.produce m) (0 : ℤ) { w with kafka := { w.kafka with
      outstanding := Function.update w.kafka.outstanding i (w.kafka.outstanding i ++ [m]) } }
  | produceRefused {m} {c : ℤ} : c ≠ 0 → GroupStep i w (.produce m) c w
  | flush {result : ℤ} {done rest} :
      (done.map Prod.fst ++ rest).Perm (w.kafka.outstanding i) → (result = 0 → rest = []) →
      GroupStep i w .flush (result, done.map Prod.snd) { w with kafka := { w.kafka with
        outstanding := Function.update w.kafka.outstanding i rest
        deadLetters := w.kafka.deadLetters ++ delivered done } }
  | commitMessage {p o} {c : ℤ} : GroupStep i w (.commitMessage p o) c { w with
      kafka := { w.kafka with committed := Function.update w.kafka.committed p (o + 1) } }
  | commitRefused {p o} {c : ℤ} : c ≠ 0 → GroupStep i w (.commitMessage p o) c w

/-- What happens without any consumer: the log grows, partitions are assigned at their committed
offset or revoked, other dead letters arrive, and the server changes the links. -/
inductive Outside (w : GroupWorld Tid) : GroupWorld Tid → Prop
  | append (p m) : Outside w { w with kafka := { w.kafka with
      log := Function.update w.kafka.log p (w.kafka.log p ++ [m]) } }
  | assign (i p) : Outside w { w with kafka := { w.kafka with
      position := Function.update w.kafka.position i
        (Function.update (w.kafka.position i) p (some (w.kafka.committed p))) } }
  | revoke (i p) : Outside w { w with kafka := { w.kafka with
      position := Function.update w.kafka.position i
        (Function.update (w.kafka.position i) p none) } }
  | deadLetter (m) : Outside w { w with kafka := { w.kafka with
      deadLetters := w.kafka.deadLetters ++ [m] } }
  | links (t) : Outside w { w with sql :=
      ⟨{ w.sql.store with db := { w.db with shortLinks := t } }, w.sql.ghost⟩ }

def consumers (json : JsonLibrary) (config : ConsumerConfig) :
    Machine Tid (GroupWorld Tid) ConsumerOp ConsumerOp.Answer (Except WriterException Unit)
      Unit where
  step := GroupStep
  prog _ _ := (runOnce json config).run
  start _ _ w w' := w' = w
  -- an exception leaves run, and with it the process
  finish i r w w' := match r with
    | .ok _ => w' = w
    | .error _ => w' = w.restart i
  crash i w w' := w' = w.restart i
  outside := Outside

/-- The group starts at the beginning of every log. -/
def initialGroup (db : Db) (log : ℕ → List Record) : GroupWorld Tid :=
  ⟨⟨⟨db, fun _ => none⟩, ()⟩, ⟨log, fun _ => 0, fun _ _ => none, fun _ => none, fun _ => [], []⟩⟩

end Behaviour

section Evidence

variable (json : JsonLibrary)

def Receipted (w : GroupWorld Tid) (m : Record) : Prop :=
  ∃ event, parseAccessEventDetailed json m.payload = .ok event ∧
    (w.db.processed event.eventId).isSome

def IsEnvelopeOf (m : KafkaMessage) (x : DlqMessage) : Prop :=
  ∃ (record : DeadLetterRecord) (failedAtMs : ℤ), record.sourcePartition = m.partition ∧
    record.sourceOffset = m.offset ∧ record.key = m.key ∧ record.payload = m.payload ∧
    x.key = m.key ∧ serializeDeadLetterRecord json record failedAtMs = .ok x.value

def DeadLettered (w : GroupWorld Tid) (m : KafkaMessage) : Prop :=
  ∃ x ∈ w.kafka.deadLetters, IsEnvelopeOf json m x

def Handled (w : GroupWorld Tid) (p o : ℕ) : Prop :=
  ∃ m, (w.kafka.log p)[o]? = some m ∧
    (Receipted json w m ∨ DeadLettered json w ⟨p, o, m.key, m.payload⟩)

structure GroupInv (w : GroupWorld Tid) : Prop where
  committed : ∀ p o, o < w.kafka.committed p → Handled json w p o
  position : ∀ i p n, w.kafka.position i p = some n →
    ∀ o < n, Handled json w p o ∨ w.kafka.inFlight i = some (p, o)

end Evidence

/-- Nothing that counts as evidence is ever taken back. -/
structure Grows (w w' : GroupWorld Tid) : Prop where
  receipts : ∀ id, (w.db.processed id).isSome → (w'.db.processed id).isSome
  log : ∀ (p o : ℕ) m, (w.kafka.log p)[o]? = some m → (w'.kafka.log p)[o]? = some m
  deadLetters : ∀ x ∈ w.kafka.deadLetters, x ∈ w'.kafka.deadLetters

structure SameProcess (i : Tid) (w w' : GroupWorld Tid) : Prop where
  session : w'.sql.store.session i = w.sql.store.session i
  inFlight : w'.kafka.inFlight i = w.kafka.inFlight i
  outstanding : w'.kafka.outstanding i = w.kafka.outstanding i

theorem Grows.refl (w : GroupWorld Tid) : Grows w w :=
  ⟨fun _ h => h, fun _ _ _ h => h, fun _ h => h⟩

theorem Grows.trans {u v w : GroupWorld Tid} (h : Grows u v) (k : Grows v w) : Grows u w :=
  ⟨fun id hi => k.receipts id (h.receipts id hi), fun p o m hm => k.log p o m (h.log p o m hm),
    fun x hx => k.deadLetters x (h.deadLetters x hx)⟩

theorem SameProcess.refl (i : Tid) (w : GroupWorld Tid) : SameProcess i w w := ⟨rfl, rfl, rfl⟩

theorem SameProcess.trans {i : Tid} {u v w : GroupWorld Tid} (h : SameProcess i u v)
    (k : SameProcess i v w) : SameProcess i u w :=
  ⟨k.session.trans h.session, k.inFlight.trans h.inFlight, k.outstanding.trans h.outstanding⟩

section Facts

variable {json : JsonLibrary} {i : Tid} {w w' : GroupWorld Tid} {m : KafkaMessage}

theorem Handled.grows {p o : ℕ} (h : Handled json w p o) (hg : Grows w w') :
    Handled json w' p o := by
  obtain ⟨m, hm, hcase⟩ := h
  refine ⟨m, hg.log p o m hm, ?_⟩
  rcases hcase with ⟨event, hp, hr⟩ | ⟨x, hx, he⟩
  · exact .inl ⟨event, hp, hg.receipts _ hr⟩
  · exact .inr ⟨x, hg.deadLetters x hx, he⟩

theorem GroupInv.grows (h : GroupInv json w) (hg : Grows w w')
    (hc : w'.kafka.committed = w.kafka.committed) (hp : w'.kafka.position = w.kafka.position)
    (hf : w'.kafka.inFlight = w.kafka.inFlight) : GroupInv json w' := by
  constructor
  · intro p o ho
    exact (h.committed p o (hc ▸ ho)).grows hg
  · intro i p n hn o ho
    rw [hp] at hn
    rw [hf]
    exact (h.position i p n hn o ho).imp_left fun hh => hh.grows hg

def groupProtocol (json : JsonLibrary) : Protocol Tid (GroupWorld Tid) where
  inv := GroupInv json
  rely i w w' := Grows w w' ∧ SameProcess i w w'
  guar i w w' := Grows w w' ∧ ∀ j, j ≠ i → SameProcess j w w'
  refl i w := ⟨.refl w, .refl i w⟩
  trans _ _ _ _ h k := ⟨h.1.trans k.1, h.2.trans k.2⟩
  compatible hj h := ⟨h.1, h.2 _ hj⟩

structure Handling (json : JsonLibrary) (i : Tid) (m : KafkaMessage) (w : GroupWorld Tid) :
    Prop where
  inFlight : w.kafka.inFlight i = some (m.partition, m.offset)
  record : (w.kafka.log m.partition)[m.offset]? = some ⟨m.key, m.payload⟩
  below : ∀ o < m.offset, Handled json w m.partition o

def Quiet (i : Tid) (w : GroupWorld Tid) : Prop :=
  w.sql.store.session i = none ∧ w.kafka.outstanding i = []

def Idle (json : JsonLibrary) (i : Tid) (w : GroupWorld Tid) : Prop :=
  Quiet i w ∧ ∀ p o, w.kafka.inFlight i = some (p, o) → Handled json w p o

theorem Handling.grows (h : Handling json i m w) (hg : Grows w w')
    (hf : w'.kafka.inFlight i = w.kafka.inFlight i) : Handling json i m w' :=
  ⟨hf.trans h.inFlight, hg.log _ _ _ h.record, fun o ho => (h.below o ho).grows hg⟩

theorem handling_stable : (groupProtocol json).Stable i (Handling json i m) :=
  fun hr h => h.grows hr.1 hr.2.inFlight

theorem quiet_stable : (groupProtocol json).Stable i (Quiet i) :=
  fun hr h => ⟨hr.2.session.trans h.1, hr.2.outstanding.trans h.2⟩

theorem idle_stable : (groupProtocol json).Stable i (Idle json i) :=
  fun hr h => ⟨quiet_stable hr h.1, fun p o hf => (h.2 p o (hr.2.inFlight ▸ hf)).grows hr.1⟩

def Undisturbed (json : JsonLibrary) (i : Tid) (m : KafkaMessage) (w : GroupWorld Tid) : Prop :=
  Handling json i m w ∧ w.kafka.outstanding i = []

theorem undisturbed_stable : (groupProtocol json).Stable i (Undisturbed json i m) :=
  fun hr h => ⟨handling_stable hr h.1, hr.2.outstanding.trans h.2⟩

/-- While m is being published everything outstanding is an envelope of m. -/
def Publishing (json : JsonLibrary) (i : Tid) (m : KafkaMessage) (w : GroupWorld Tid) : Prop :=
  Handling json i m w ∧ w.sql.store.session i = none ∧
    ∀ x ∈ w.kafka.outstanding i, IsEnvelopeOf json m x

/-- The message is handled and nothing of it is left behind in this process. -/
def Settled (json : JsonLibrary) (i : Tid) (m : KafkaMessage) (w : GroupWorld Tid) : Prop :=
  Handling json i m w ∧ Quiet i w ∧ Handled json w m.partition m.offset

theorem publishing_stable : (groupProtocol json).Stable i (Publishing json i m) :=
  fun hr h => ⟨handling_stable hr h.1, hr.2.session.trans h.2.1,
    fun x hx => h.2.2 x (hr.2.outstanding ▸ hx)⟩

theorem settled_stable : (groupProtocol json).Stable i (Settled json i m) :=
  fun hr h => ⟨handling_stable hr h.1, quiet_stable hr h.2.1, h.2.2.grows hr.1⟩

theorem local_allows (hi : GroupInv json w) (hg : Grows w w')
    (hc : w'.kafka.committed = w.kafka.committed) (hp : w'.kafka.position = w.kafka.position)
    (hf : w'.kafka.inFlight = w.kafka.inFlight)
    (hs : ∀ j, j ≠ i → w'.sql.store.session j = w.sql.store.session j)
    (ho : ∀ j, j ≠ i → w'.kafka.outstanding j = w.kafka.outstanding j) :
    (groupProtocol json).Allows i w w' :=
  ⟨hi.grows hg hc hp hf, hg, fun j hj => ⟨hs j hj, by rw [hf], ho j hj⟩⟩

theorem same_allows (hi : GroupInv json w) : (groupProtocol json).Allows i w w :=
  ⟨hi, .refl w, fun j _ => .refl j w⟩

def receiptDiscipline : Discipline Tid Db Unit where
  inv _ := True
  rely _ x y := ∀ id, (x.1.processed id).isSome → (y.1.processed id).isSome
  guar _ x y := ∀ id, (x.1.processed id).isSome → (y.1.processed id).isSome
  refl _ _ _ h := h
  trans _ _ _ _ h k id hi := k id (h id hi)
  quiet _ _ _ h := h
  compatible _ h := h

theorem receipt_host (event : AccessEvent) (source : AccessEventSourcePosition) (i : Tid) :
    Hosts receiptDiscipline (fun _ g => g) i event source fun _ => True where
  effect _ _ h := ⟨trivial, h.receipts_grow⟩
  ready _ _ := trivial
  receipt h := h _

theorem delivery_last {reports : List ℤ}
    (h : (reports.foldl deliveryCallback ⟨false, 0⟩).observed = true) :
    (reports.foldl deliveryCallback ⟨false, 0⟩).error ∈ reports := by
  rcases reports.eq_nil_or_concat with rfl | ⟨before, last, rfl⟩
  · simp at h
  · simp [deliveryCallback]

theorem flush_settles {w w' : GroupWorld Tid} {done : List (DlqMessage × ℤ)}
    (hw : Publishing json i m w) (h₀ : (0 : ℤ) ∈ done.map Prod.snd)
    (hdone : ∀ x ∈ done.map Prod.fst, x ∈ w.kafka.outstanding i)
    (hdead : w'.kafka.deadLetters = w.kafka.deadLetters ++ delivered done)
    (hh : Handling json i m w') (hq : Quiet i w') : Settled json i m w' := by
  obtain ⟨⟨x, c⟩, hx, rfl⟩ := List.mem_map.mp h₀
  have henv : IsEnvelopeOf json m x :=
    hw.2.2 x (hdone x (List.mem_map_of_mem (f := Prod.fst) hx))
  have hack : x ∈ delivered done :=
    List.mem_map_of_mem (f := Prod.fst) (List.mem_filter.mpr ⟨hx, rfl⟩)
  exact ⟨hh, hq, ⟨m.key, m.payload⟩, hh.record,
    .inr ⟨x, hdead ▸ List.mem_append_right _ hack, henv⟩⟩

theorem initial_inv (db : Db) (log : ℕ → List Record) :
    GroupInv json (initialGroup db log : GroupWorld Tid) :=
  ⟨fun _ _ h => absurd h (Nat.not_lt_zero _), fun _ _ _ h => nomatch h⟩

end Facts

section Rules

variable [DecidableEq Tid] {json : JsonLibrary} {config : ConsumerConfig} {i : Tid}
  {w w' : GroupWorld Tid} {m : KafkaMessage}
variable {γ : Type} {F : GroupWorld Tid → Prop}
  {R : Except WriterException γ → GroupWorld Tid → Prop}

theorem safe_now {f : ℤ → Consumer γ} (hF : (groupProtocol json).Stable i F) (hw : F w)
    (h : ∀ t w₁, F w₁ → Safe (groupProtocol json) GroupStep i R (f t).run w₁) :
    Safe (groupProtocol json) GroupStep i R (now >>= f).run w := by
  apply safe_perform_bind hF hw
  intro w₁ r w₂ hi hw₁ hs
  cases hs with
  | now => exact ⟨same_allows hi, h _ w₁ hw₁⟩

theorem safe_sleepFor {ms : ℤ} {f : Unit → Consumer γ} (hF : (groupProtocol json).Stable i F)
    (hw : F w) (h : ∀ w₁, F w₁ → Safe (groupProtocol json) GroupStep i R (f ()).run w₁) :
    Safe (groupProtocol json) GroupStep i R (sleepFor ms >>= f).run w := by
  apply safe_perform_bind hF hw
  intro w₁ r w₂ hi hw₁ hs
  cases hs with
  | sleepFor => exact ⟨same_allows hi, h w₁ hw₁⟩

theorem safe_runtimeError {what : String} {Q : γ → GroupWorld Tid → Prop} :
    Safe (groupProtocol json) GroupStep i (OnOk Q) (runtimeError what : Consumer γ).run w :=
  safe_raise

theorem writing_safe {event : AccessEvent} {source : AccessEventSourcePosition}
    (hw : Undisturbed json i m w) (hs : w.sql.store.session i = none) :
    Safe (groupProtocol json) GroupStep i
      (fun r w => Finished i event r w.sql ∧ Undisturbed json i m w)
      (writing (process event source)).run w := by
  refine safe_lift _ _ GroupWorld.sql undisturbed_stable ?_ ?_ ?_
    (process_safe (receipt_host event source i) trivial hs) hw
  · exact fun hr => ⟨hr.2.session, hr.1.receipts⟩
  · exact fun _ => trivial
  · intro w op r w' hi hu hstep
    cases hstep with
    | @sql op r s hstep =>
      refine ⟨hstep, ?_⟩
      intro ha
      have hg : Grows w { w with sql := s } := ⟨ha.2.2, fun _ _ _ h => h, fun _ h => h⟩
      exact ⟨local_allows hi hg rfl rfl rfl ha.2.1 fun _ _ => rfl, hu.1.grows hg rfl, hu.2⟩

theorem reconnect_safe (hw : Undisturbed json i m w) (hs : w.sql.store.session i = none) :
    Safe (groupProtocol json) GroupStep i (fun _ w => Undisturbed json i m w ∧ Quiet i w)
      reconnect.run w := by
  intro w₁ hr hi r w₂ hstep
  have hu := undisturbed_stable hr hw
  have hs₁ := hr.2.session.trans hs
  have settled : ∀ w₃, Undisturbed json i m w₃ → w₃.sql.store.session i = none →
      Safe (groupProtocol json) GroupStep i (fun _ w => Undisturbed json i m w ∧ Quiet i w)
        (.ret r) w₃ := fun w₃ hu₃ hs₃ w₄ hr₄ _ =>
    have hu₄ := undisturbed_stable hr₄ hu₃
    ⟨hu₄, hr₄.2.session.trans hs₃, hu₄.2⟩
  cases hstep with
  | reconnect =>
    have hg : Grows w₁ (w₁.closeSession i) := ⟨fun _ h => h, fun _ _ _ h => h, fun _ h => h⟩
    exact ⟨local_allows hi hg rfl rfl rfl (fun j hj => setSession_of_ne _ _ hj) fun _ _ => rfl,
      settled _ ⟨hu.1.grows hg rfl, hu.2⟩ (setSession_self ..)⟩
  | reconnectRefused => exact ⟨same_allows hi, settled _ hu hs₁⟩

theorem persistAttempts_safe {event : AccessEvent} {source : AccessEventSourcePosition}
    (n : ℕ) (delayMs : ℤ) (hw : Undisturbed json i m w) (hq : Quiet i w) :
    Safe (groupProtocol json) GroupStep i
      (fun r w => Undisturbed json i m w ∧ Quiet i w ∧
        ∀ a, r = .ok a → (w.db.processed event.eventId).isSome)
      (persistAttempts config event source n delayMs).run w := by
  have raise : ∀ {e : WriterException} {w}, Undisturbed json i m w → Quiet i w →
      Safe (groupProtocol json) GroupStep i
        (fun r w => Undisturbed json i m w ∧ Quiet i w ∧
          ∀ a, r = .ok a → (w.db.processed event.eventId).isSome)
        (throw e : Consumer AccessStatisticsWriteResult).run w := fun hu hq =>
    safe_throw fun _ hr _ => ⟨undisturbed_stable hr hu, quiet_stable hr hq, fun _ ha => nomatch ha⟩
  induction n generalizing delayMs w with
  | zero => exact raise hw hq
  | succ n ih =>
    apply safe_catch
    apply safe_mono (writing_safe hw hq.1)
    rintro (e | a) w₁ _ ⟨hfin, hu⟩
    · have hq₁ : Quiet i w₁ := ⟨hfin.1, hu.2⟩
      -- the handler: an orphan, a foreign object and the last attempt leave; the rest retries
      have retry : Safe (groupProtocol json) GroupStep i
          (fun r w => Undisturbed json i m w ∧ Quiet i w ∧
            ∀ a, r = .ok a → (w.db.processed event.eventId).isSome)
          (if !isStdException e || n = 0 then throw e
          else do
            sleepFor delayMs
            tryCatch reconnect fun reconnectError => do
              if isStdException reconnectError then pure () else throw reconnectError
            persistAttempts config event source n
              (nextRetryDelayMs delayMs config.retryMaxMs) : Consumer _).run w₁ := by
        split
        · exact raise hu hq₁
        · refine safe_sleepFor (F := fun w => Undisturbed json i m w ∧ Quiet i w)
            (fun hr h => ⟨undisturbed_stable hr h.1, quiet_stable hr h.2⟩) ⟨hu, hq₁⟩ ?_
          rintro w₂ ⟨hu₂, hq₂⟩
          apply safe_client_bind
          apply safe_catch
          apply safe_mono (reconnect_safe hu₂ hq₂.1)
          rintro (e' | _) w₃ _ ⟨hu₃, hq₃⟩
          · show Safe _ _ _ _
              (if isStdException e' then pure () else throw e' : Consumer Unit).run w₃
            split
            · exact safe_pure fun w₄ hr _ =>
                ih _ (undisturbed_stable hr hu₃) (quiet_stable hr hq₃)
            · exact safe_throw fun w₄ hr _ =>
                raise (undisturbed_stable hr hu₃) (quiet_stable hr hq₃)
          · exact safe_pure fun w₄ hr _ =>
              ih _ (undisturbed_stable hr hu₃) (quiet_stable hr hq₃)
      cases e with
      | orphanShortLinkEvent code => exact raise hu hq₁
      | std e => exact retry
      | database what => exact retry
    · exact safe_pure fun w₂ hr _ => ⟨undisturbed_stable hr hu, quiet_stable hr ⟨hfin.1, hu.2⟩,
        fun _ _ => hr.1.receipts _ (hfin.2 a rfl)⟩

theorem publish_safe {record : DeadLetterRecord} (hp : record.sourcePartition = m.partition)
    (ho : record.sourceOffset = m.offset) (hk : record.key = m.key)
    (hv : record.payload = m.payload) (hw : Publishing json i m w) :
    Safe (groupProtocol json) GroupStep i
      (OnOk fun b w => if b then Settled json i m w else Publishing json i m w)
      (publish json record).run w := by
  have failed : ∀ {w}, Publishing json i m w → Safe (groupProtocol json) GroupStep i
      (OnOk fun b w => if b then Settled json i m w else Publishing json i m w)
      (pure false : Consumer Bool).run w := fun h =>
    safe_return (fun hr h => publishing_stable hr h) h
  apply safe_now publishing_stable hw
  intro t w₁ hw₁
  cases hser : serializeDeadLetterRecord json record t with
  | error e => exact failed hw₁
  | ok payload =>
    apply safe_perform_bind publishing_stable hw₁
    intro w₂ r w₃ hi hw₂ hs
    cases hs with
    | produceRefused hc =>
      refine ⟨same_allows hi, ?_⟩
      rw [if_pos hc]
      exact failed hw₂
    | produce =>
      refine ⟨local_allows hi ⟨fun _ h => h, fun _ _ _ h => h, fun _ h => h⟩ rfl rfl rfl
        (fun _ _ => rfl) fun j hj => by simp [hj], ?_⟩
      rw [if_neg (by simp)]
      have hnew : IsEnvelopeOf json m ⟨record.key, payload⟩ :=
        ⟨record, t, hp, ho, hk, hv, hk, hser⟩
      have hw₃ : Publishing json i m { w₂ with kafka := { w₂.kafka with
          outstanding := Function.update w₂.kafka.outstanding i
            (w₂.kafka.outstanding i ++ [⟨record.key, payload⟩]) } } := by
        refine ⟨hw₂.1.grows ⟨fun _ h => h, fun _ _ _ h => h, fun _ h => h⟩ rfl, hw₂.2.1, ?_⟩
        simp only [Function.update_self, List.mem_append, List.mem_singleton]
        rintro x (hx | rfl)
        · exact hw₂.2.2 x hx
        · exact hnew
      apply safe_perform_bind publishing_stable hw₃
      intro w₄ r w₅ hi hw₄ hs
      cases hs with
      | @flush result done rest hperm hrest =>
        have hg : Grows w₄ { w₄ with kafka := { w₄.kafka with
            outstanding := Function.update w₄.kafka.outstanding i rest
            deadLetters := w₄.kafka.deadLetters ++ delivered done } } :=
          ⟨fun _ h => h, fun _ _ _ h => h, fun _ h => List.mem_append_left _ h⟩
        have hh := hw₄.1.grows hg rfl
        refine ⟨local_allows hi hg rfl rfl rfl (fun _ _ => rfl) fun j hj => by simp [hj], ?_⟩
        have hmem : ∀ x ∈ done.map Prod.fst ++ rest, x ∈ w₄.kafka.outstanding i :=
          fun x hx => hperm.mem_iff.mp hx
        by_cases hok : (result == 0 &&
            ((done.map Prod.snd).foldl deliveryCallback ⟨false, 0⟩).observed &&
            ((done.map Prod.snd).foldl deliveryCallback ⟨false, 0⟩).error == 0) = true
        · simp only [hok]
          simp only [Bool.and_eq_true, beq_iff_eq] at hok
          obtain ⟨⟨hres, hobs⟩, herr⟩ := hok
          refine safe_return (fun hr h => settled_stable hr h) ?_
          refine flush_settles hw₄ (herr ▸ delivery_last hobs)
            (fun x hx => hmem x (List.mem_append_left _ hx)) rfl hh ⟨hw₄.2.1, ?_⟩
          simp [hrest hres]
        · simp only [hok]
          refine failed ⟨hh, hw₄.2.1, ?_⟩
          simp only [Function.update_self]
          exact fun x hx => hw₄.2.2 x (hmem x (List.mem_append_right _ hx))

theorem publishAttempts_safe {record : DeadLetterRecord}
    (hp : record.sourcePartition = m.partition) (ho : record.sourceOffset = m.offset)
    (hk : record.key = m.key) (hv : record.payload = m.payload) (n : ℕ) (delayMs : ℤ)
    (hw : Publishing json i m w) :
    Safe (groupProtocol json) GroupStep i (OnOk fun _ w => Settled json i m w)
      (publishAttempts json config record n delayMs).run w := by
  induction n generalizing delayMs w with
  | zero => exact safe_runtimeError
  | succ n ih =>
    apply safe_bind_ok (publish_safe hp ho hk hv hw)
    rintro (_ | _) w₁ hw₁
    · simp only [Bool.false_eq_true, if_false] at hw₁ ⊢
      split
      · exact ih _ hw₁
      · exact safe_sleepFor publishing_stable hw₁ fun w₂ hw₂ => ih _ hw₂
    · exact safe_return (fun hr h => settled_stable hr h) hw₁

theorem commitAttempts_safe (attempt n : ℕ) (hw : Settled json i m w) :
    Safe (groupProtocol json) GroupStep i (OnOk fun _ w => Idle json i w)
      (commitAttempts m attempt n).run w := by
  induction n generalizing attempt w with
  | zero => exact safe_runtimeError
  | succ n ih =>
    -- whatever the reply, the message stays settled and the invariant survives
    have next : ∀ {c : ℤ} {w}, Settled json i m w →
        Safe (groupProtocol json) GroupStep i (OnOk fun _ w => Idle json i w)
          (if c = 0 then pure ()
          else if n = 0 then commitAttempts m (attempt + 1) n
          else do
            sleepFor (100 * attempt)
            commitAttempts m (attempt + 1) n : Consumer Unit).run w := by
      intro c w hs
      split
      · refine safe_return idle_stable ⟨hs.2.1, ?_⟩
        intro p o hf
        obtain ⟨rfl, rfl⟩ := Prod.mk.inj (Option.some.inj (hs.1.inFlight.symm.trans hf))
        exact hs.2.2
      · split
        · exact ih _ hs
        · exact safe_sleepFor settled_stable hs fun w₁ hw₁ => ih _ hw₁
    apply safe_perform_bind settled_stable hw
    intro w₁ c w₂ hi hw₁ hs
    cases hs with
    | commitRefused => exact ⟨same_allows hi, next hw₁⟩
    | commitMessage =>
      have hg : Grows w₁ { w₁ with kafka := { w₁.kafka with
          committed := Function.update w₁.kafka.committed m.partition (m.offset + 1) } } :=
        ⟨fun _ h => h, fun _ _ _ h => h, fun _ h => h⟩
      refine ⟨⟨⟨fun p o ho => ?_, fun j p n hn o ho => ?_⟩, hg, fun _ _ => ⟨rfl, rfl, rfl⟩⟩,
        next ⟨hw₁.1.grows hg rfl, hw₁.2.1, hw₁.2.2.grows hg⟩⟩
      · by_cases hp : p = m.partition
        · subst hp
          simp only [Function.update_self] at ho
          rcases Nat.lt_succ_iff_lt_or_eq.mp ho with hlt | rfl
          · exact (hw₁.1.below o hlt).grows hg
          · exact hw₁.2.2.grows hg
        · simp only [Function.update_of_ne hp] at ho
          exact (hi.committed p o ho).grows hg
      · exact (hi.position j p n hn o ho).imp_left fun h => h.grows hg

theorem publishToDeadLetter_safe {reason : DeadLetterReason} (hw : Handling json i m w)
    (hq : Quiet i w) :
    Safe (groupProtocol json) GroupStep i (OnOk fun _ w => Settled json i m w)
      (publishToDeadLetter json config m reason).run w :=
  publishAttempts_safe rfl rfl rfl rfl _ _ ⟨hw, hq.1, by simp [hq.2]⟩

/-- The four ways out of handleMessage: each leaves evidence before it commits. -/
theorem handleMessage_safe (hw : Handling json i m w) (hq : Quiet i w) :
    Safe (groupProtocol json) GroupStep i (OnOk fun _ w => Idle json i w)
      (handleMessage json config m).run w := by
  unfold handleMessage
  cases hparse : parseAccessEventDetailed json m.payload with
  | error e =>
    exact safe_bind_ok (publishToDeadLetter_safe hw hq) fun _ w₁ hw₁ => commitAttempts_safe _ _ hw₁
  | ok event =>
    simp only
    split
    · exact safe_bind_ok (publishToDeadLetter_safe hw hq)
        fun _ w₁ hw₁ => commitAttempts_safe _ _ hw₁
    · refine safe_bind_ok (Q := fun persisted w => match persisted with
        | some _ => Settled json i m w
        | none => Idle json i w) ?_ ?_
      · apply safe_catch
        rw [map_eq_pure_bind]
        apply safe_client_bind
        apply safe_mono (persistAttempts_safe _ _ ⟨hw, hq.2⟩ hq)
        rintro (e | a) w₁ _ ⟨hu, hq₁, hrec⟩
        · apply safe_throw
          intro w₂ hr _
          cases e with
          | orphanShortLinkEvent code =>
            refine safe_bind_ok (publishToDeadLetter_safe (handling_stable hr hu.1)
              (quiet_stable hr hq₁)) fun _ w₃ hw₃ => ?_
            exact safe_bind_ok (commitAttempts_safe _ _ hw₃)
              fun _ w₄ hw₄ => safe_return idle_stable hw₄
          | std e => exact safe_raise
          | database what => exact safe_raise
        · have hs : Settled json i m w₁ :=
            ⟨hu.1, hq₁, ⟨m.key, m.payload⟩, hu.1.record, .inl ⟨event, hparse, hrec a rfl⟩⟩
          exact safe_pure fun w₂ hr _ => safe_return settled_stable (settled_stable hr hs)
      · rintro (_ | a) w₁ hw₁
        · exact safe_return idle_stable hw₁
        · exact commitAttempts_safe _ _ hw₁

theorem runOnce_safe (hw : Idle json i w) :
    Safe (groupProtocol json) GroupStep i (OnOk fun _ w => Idle json i w)
      (runOnce json config).run w := by
  apply safe_perform_bind idle_stable hw
  intro w₁ r w₂ hi hw₁ hs
  cases hs with
  | pollNothing => exact ⟨same_allows hi, safe_return idle_stable hw₁⟩
  | @pollFailure eof =>
    refine ⟨same_allows hi, ?_⟩
    cases eof with
    | true => exact safe_return idle_stable hw₁
    | false =>
      show Safe _ _ _ _ (sleepFor 250).run w₁
      rw [← bind_pure (sleepFor 250)]
      exact safe_sleepFor idle_stable hw₁ fun w₂ hw₂ => safe_return idle_stable hw₂
  | @pollMessage p o m hpos hm =>
    have hg : Grows w₁ { w₁ with kafka := { w₁.kafka with
        position := Function.update w₁.kafka.position i
          (Function.update (w₁.kafka.position i) p (some (o + 1)))
        inFlight := Function.update w₁.kafka.inFlight i (some (p, o)) } } :=
      ⟨fun _ h => h, fun _ _ _ h => h, fun _ h => h⟩
    -- what was in flight before is handled, so only the polled message is owed
    have hbelow : ∀ q n, w₁.kafka.position i q = some n → ∀ o' < n, Handled json w₁ q o' :=
      fun q n hn o' ho' => (hi.position i q n hn o' ho').elim id (hw₁.2 q o')
    refine ⟨⟨⟨fun q o' ho' => (hi.committed q o' ho').grows hg, ?_⟩, hg, fun j hj => ?_⟩, ?_⟩
    · intro j q n hn o' ho'
      by_cases hj : j = i
      · subst hj
        simp only [Function.update_self] at hn ⊢
        by_cases hq : q = p
        · subst hq
          simp only [Function.update_self, Option.some.injEq] at hn
          subst hn
          rcases Nat.lt_succ_iff_lt_or_eq.mp ho' with hlt | rfl
          · exact .inl ((hbelow q o hpos o' hlt).grows hg)
          · exact .inr rfl
        · simp only [Function.update_of_ne hq] at hn
          exact .inl ((hbelow q n hn o' ho').grows hg)
      · simp only [Function.update_of_ne hj] at hn ⊢
        exact (hi.position j q n hn o' ho').imp_left fun h => h.grows hg
    · exact ⟨rfl, by simp [hj], rfl⟩
    · refine handleMessage_safe ⟨by simp, hm, ?_⟩ ⟨hw₁.1.1, hw₁.1.2⟩
      intro o' ho'
      exact (hbelow p o hpos o' ho').grows hg

theorem outside_allows (hi : GroupInv json w) (h : Outside w w') :
    GroupInv json w' ∧ ∀ i, (groupProtocol json).rely i w w' := by
  -- a new assignment starts where everything before is handled
  have reassigned : ∀ (i : Tid) (p : ℕ) (n : Option ℕ), n ∈ [none, some (w.kafka.committed p)] →
      GroupInv json { w with kafka := { w.kafka with
        position := Function.update w.kafka.position i
          (Function.update (w.kafka.position i) p n) } } := by
    intro i p n hn
    refine ⟨hi.committed, ?_⟩
    intro j q k hk o ho
    by_cases hj : j = i ∧ q = p
    · obtain ⟨rfl, rfl⟩ := hj
      simp only [Function.update_self] at hk
      subst hk
      obtain rfl : k = w.kafka.committed q := by simpa using hn
      exact .inl (hi.committed q o ho)
    · refine hi.position j q k ?_ o ho
      by_cases hj' : j = i
      · subst hj'
        simpa [Function.update_of_ne (fun h => hj ⟨rfl, h⟩)] using hk
      · simpa [Function.update_of_ne hj'] using hk
  cases h with
  | append p m =>
    have hg : Grows w { w with kafka := { w.kafka with
        log := Function.update w.kafka.log p (w.kafka.log p ++ [m]) } } := by
      refine ⟨fun _ h => h, ?_, fun _ h => h⟩
      intro q o x hx
      by_cases hq : q = p
      · subst hq
        obtain ⟨hlt, -⟩ := List.getElem?_eq_some_iff.mp hx
        simpa [List.getElem?_append_left hlt] using hx
      · simpa [hq] using hx
    exact ⟨hi.grows hg rfl rfl rfl, fun i => ⟨hg, rfl, rfl, rfl⟩⟩
  | assign i p =>
    exact ⟨reassigned i p _ (by simp), fun j =>
      ⟨⟨fun _ h => h, fun _ _ _ h => h, fun _ h => h⟩, rfl, rfl, rfl⟩⟩
  | revoke i p =>
    exact ⟨reassigned i p _ (by simp), fun j =>
      ⟨⟨fun _ h => h, fun _ _ _ h => h, fun _ h => h⟩, rfl, rfl, rfl⟩⟩
  | deadLetter m =>
    have hg : Grows w { w with kafka := { w.kafka with
        deadLetters := w.kafka.deadLetters ++ [m] } } :=
      ⟨fun _ h => h, fun _ _ _ h => h, fun _ h => List.mem_append_left _ h⟩
    exact ⟨hi.grows hg rfl rfl rfl, fun i => ⟨hg, rfl, rfl, rfl⟩⟩
  | links t =>
    have hg : Grows w { w with sql :=
        ⟨{ w.sql.store with db := { w.db with shortLinks := t } }, w.sql.ghost⟩ } :=
      ⟨fun _ h => h, fun _ _ _ h => h, fun _ h => h⟩
    exact ⟨hi.grows hg rfl rfl rfl, fun i => ⟨hg, rfl, rfl, rfl⟩⟩

theorem consumers_verified (json : JsonLibrary) (config : ConsumerConfig) :
    (@consumers Tid _ json config).Verified (groupProtocol json) (Idle json)
      fun i => OnOk fun _ w => Idle json i w := by
  have restart : ∀ {w : GroupWorld Tid} {i}, GroupInv json w →
      (groupProtocol json).Allows i w (w.restart i) ∧ Idle json i (w.restart i) := by
    intro w i hi
    have hg : Grows w (w.restart i) := ⟨fun _ h => h, fun _ _ _ h => h, fun _ h => h⟩
    refine ⟨⟨⟨fun p o ho => (hi.committed p o ho).grows hg, fun j p n hn o ho => ?_⟩, hg,
      fun j hj => ⟨setSession_of_ne _ _ hj, ?_, ?_⟩⟩, ⟨setSession_self .., ?_⟩, ?_⟩
    · by_cases hj : j = i
      · subst hj
        simp [GroupWorld.restart] at hn
      · simp only [GroupWorld.restart, Function.update_of_ne hj] at hn ⊢
        exact (hi.position j p n hn o ho).imp_left fun h => h.grows hg
    all_goals simp_all [GroupWorld.restart]
  constructor
  · exact fun h hr => idle_stable hr h
  · rintro i _ w _ hi hidle rfl
    exact ⟨same_allows hi, runOnce_safe hidle⟩
  · rintro i (e | _) w w' hi hpost rfl
    · exact restart hi
    · exact ⟨same_allows hi, hpost⟩
  · rintro i w _ hi rfl
    exact restart hi
  · exact outside_allows

end Rules

/-- No event is skipped: whatever is below a committed offset has a committed receipt for its
event, or an acknowledged dead letter with its key and payload. -/
theorem no_event_is_skipped [DecidableEq Tid] (json : JsonLibrary) (config : ConsumerConfig)
    (db : Db) (log : ℕ → List Record) (s : Pool Tid (GroupWorld Tid) ConsumerOp ConsumerOp.Answer _)
    (hs : (consumers json config).Reachable (initialGroup db log) s) (p o : ℕ)
    (h : o < s.world.kafka.committed p) :
    ∃ m, (s.world.kafka.log p)[o]? = some m ∧
      (Receipted json s.world m ∨ DeadLettered json s.world ⟨p, o, m.key, m.payload⟩) :=
  ((consumers_verified json config).reachable (initial_inv db log)
    (fun _ => ⟨⟨rfl, rfl⟩, fun _ _ h => nomatch h⟩) hs).1.committed p o h

/-- A payload that is not JSON, and the envelope the library prints for it. -/
def demoEnvelope : Bytes :=
  ascii "\x7b\"schema_version\":1,\"event_type\":\"short_link_access_dead_letter\"," ++
    ascii "\"failed_at_ms\":5,\"reason\":\"invalid_json\",\"source_topic\":\"t\"," ++
    ascii "\"source_partition\":0,\"source_offset\":0,\"original_key_base64\":\"aw==\"," ++
    ascii "\"original_key_size\":1,\"original_key_truncated\":false," ++
    ascii "\"original_payload_base64\":\"eA==\",\"original_payload_size\":1," ++
    ascii "\"original_payload_truncated\":false\x7d"

def demoJson : JsonLibrary := ⟨fun _ => none, fun _ => none, fun _ => .ok demoEnvelope⟩
def demoConfig : ConsumerConfig := ⟨ascii "t", 100, 5000, 5, 3⟩
def demoDb : Db := Db.empty ⟨[], by simp, by simp⟩
def demoLog (_ : ℕ) : List Record := [⟨ascii "k", ascii "x"⟩]

def demoStart : GroupWorld Unit :=
  ⟨⟨⟨demoDb, fun _ => none⟩, ()⟩, ⟨demoLog, fun _ => 0,
    fun _ => Function.update (fun _ => none) 0 (some 0), fun _ => none, fun _ => [], []⟩⟩

def demoFinal : GroupWorld Unit :=
  ⟨⟨⟨demoDb, fun _ => none⟩, ()⟩, ⟨demoLog, Function.update (fun _ => 0) 0 1,
    fun _ => Function.update (Function.update (fun _ => none) 0 (some 0)) 0 (some 1),
    fun _ => some (0, 0), fun _ => [], [⟨ascii "k", demoEnvelope⟩]⟩⟩

theorem demo_reachable : (consumers demoJson demoConfig).Reachable (initialGroup demoDb demoLog)
    ⟨demoFinal, fun _ => some (.ret (.ok ()))⟩ := by
  have hassign : (consumers demoJson demoConfig).Reachable (initialGroup demoDb demoLog)
      ⟨demoStart, fun _ => none⟩ := .next .init (.outside _ _ (.assign () 0))
  have hstart := hassign.next (.start _ () () _ rfl rfl)
  have hcalls : CallSeq GroupStep ()
      (runOnce demoJson demoConfig).run demoStart (.ret (.ok ())) demoFinal := by
    refine .call (.message ⟨0, 0, ascii "k", ascii "x"⟩)
      (GroupStep.pollMessage (m := ⟨ascii "k", ascii "x"⟩) rfl rfl) ?_
    refine .call (5 : ℤ) .now ?_
    refine .call (0 : ℤ) (.produce (m := ⟨ascii "k", demoEnvelope⟩)) ?_
    refine .call ((0 : ℤ), [(0 : ℤ)])
      (@GroupStep.flush Unit _ _ _ 0 [(⟨ascii "k", demoEnvelope⟩, 0)] [] (.refl _) fun _ => rfl) ?_
    exact .call (0 : ℤ) GroupStep.commitMessage (.done _ _)
  exact hstart.calls rfl hcalls

theorem no_event_is_skipped_demo : ∃ m, (demoFinal.kafka.log 0)[0]? = some m ∧
    (Receipted demoJson demoFinal m ∨ DeadLettered demoJson demoFinal ⟨0, 0, m.key, m.payload⟩) :=
  no_event_is_skipped demoJson demoConfig demoDb demoLog _ demo_reachable 0 0 (by decide)

end ConsumerGroup
