import HaoShortLink.ConsumerGroup
import Mathlib.Logic.Relation

/-! KafkaDeadLetterPublisher with the two flags that all its attempts share: what they say when
an attempt succeeds, and that it then was delivered. -/
namespace DeadLetterDelivery

open Cpp Program DeadLetters
open AccessEventConsumer (ConsumerConfig ConsumerOp KafkaMessage DlqMessage Delivery
  deliveryCallback nextRetryDelayMs)
open AccessStatisticsWriter (WriterException)
open JsonValues (JsonLibrary)

inductive PublisherOp where
  | now
  | sleepFor (milliseconds : ℤ)
  | storeObserved (observed : Bool)
  | storeError (error : ℤ)
  | loadObserved
  | loadError
  | produce (m : DlqMessage)
  | flush

/-- Error codes are rd_kafka_resp_err_t, 0 is NO_ERROR. -/
def PublisherOp.Answer : PublisherOp → Type
  | .now | .loadError | .produce _ | .flush => ℤ
  | .sleepFor _ | .storeObserved _ | .storeError _ => Unit
  | .loadObserved => Bool

abbrev Publisher := ExceptT WriterException (Prog PublisherOp PublisherOp.Answer)

def now : Publisher ℤ := perform PublisherOp.now
def sleepFor (milliseconds : ℤ) : Publisher Unit := perform (PublisherOp.sleepFor milliseconds)
def storeObserved (observed : Bool) : Publisher Unit :=
  perform (PublisherOp.storeObserved observed)
def storeError (error : ℤ) : Publisher Unit := perform (PublisherOp.storeError error)
def loadObserved : Publisher Bool := perform PublisherOp.loadObserved
def loadError : Publisher ℤ := perform PublisherOp.loadError
def produce (m : DlqMessage) : Publisher ℤ := perform (PublisherOp.produce m)
def flush : Publisher ℤ := perform PublisherOp.flush

section Source

variable (json : JsonLibrary)

def publish (record : DeadLetterRecord) : Publisher Bool := do
  let failedAtMs ← now
  match serializeDeadLetterRecord json record failedAtMs with
  | .error _ => pure false
  | .ok payload =>
    storeObserved false
    storeError 0
    let result ← produce ⟨record.key, payload⟩
    if result ≠ 0 then
      pure false
    else
      let result ← flush
      if result ≠ 0 then
        pure false
      else if ← loadObserved then
        let error ← loadError
        pure (error == 0)
      else
        pure false

variable (config : ConsumerConfig)

def publishAttempts (record : DeadLetterRecord) : ℕ → ℤ → Publisher Unit
  | 0, _ => throw (.std (.runtimeError (ascii "failed to publish access event to DLQ")))
  | remaining + 1, delayMs => do
    if ← publish json record then
      pure ()
    else if remaining = 0 then
      publishAttempts record remaining delayMs
    else
      sleepFor delayMs
      publishAttempts record remaining (nextRetryDelayMs delayMs config.retryMaxMs)

def deadLetterRecord (message : KafkaMessage) (reason : DeadLetterReason) : DeadLetterRecord :=
  ⟨config.topic, message.partition, message.offset, message.key, message.payload, reason⟩

def publishToDeadLetter (message : KafkaMessage) (reason : DeadLetterReason) : Publisher Unit :=
  publishAttempts json config (deadLetterRecord config message reason)
    config.processingMaxAttempts config.retryInitialMs

end Source

/-- The program with the flags as its state, and the callbacks that a flush runs. -/
def inFlush {α : Type} : Prog PublisherOp PublisherOp.Answer α → Delivery →
    Prog ConsumerOp ConsumerOp.Answer (α × Delivery)
  | .ret a, flags => .ret (a, flags)
  | .ask .now k, flags => .ask .now fun t => inFlush (k t) flags
  | .ask (.sleepFor milliseconds) k, flags =>
    .ask (.sleepFor milliseconds) fun _ => inFlush (k ()) flags
  | .ask (.storeObserved observed) k, flags => inFlush (k ()) { flags with observed }
  | .ask (.storeError error) k, flags => inFlush (k ()) { flags with error }
  | .ask .loadObserved k, flags => inFlush (k flags.observed) flags
  | .ask .loadError k, flags => inFlush (k flags.error) flags
  | .ask (.produce m) k, flags => .ask (.produce m) fun result => inFlush (k result) flags
  | .ask .flush k, flags =>
    .ask .flush fun (result, reports) => inFlush (k result) (reports.foldl deliveryCallback flags)

variable {α β : Type} {flags : Delivery}

/-- With these flags the program does and returns what the other does. -/
def Does (flags : Delivery) (p : Prog PublisherOp PublisherOp.Answer α)
    (q : Prog ConsumerOp ConsumerOp.Answer α) : Prop :=
  (inFlush p flags).bind (fun r => .ret r.1) = q

section Rules

variable {f : α → Publisher β} {g : α → AccessEventConsumer.Consumer β}
  {y : AccessEventConsumer.Consumer β}

theorem does_now {f : ℤ → Publisher β} {g : ℤ → AccessEventConsumer.Consumer β}
    (h : ∀ t, Does flags (f t).run (g t).run) :
    Does flags (now >>= f).run (AccessEventConsumer.now >>= g).run :=
  congrArg (Prog.ask ConsumerOp.now) (funext h)

theorem does_sleepFor {milliseconds : ℤ} {f : Unit → Publisher β}
    {g : Unit → AccessEventConsumer.Consumer β} (h : Does flags (f ()).run (g ()).run) :
    Does flags (sleepFor milliseconds >>= f).run
      (AccessEventConsumer.sleepFor milliseconds >>= g).run :=
  congrArg (Prog.ask (ConsumerOp.sleepFor milliseconds)) (funext fun _ => h)

theorem does_produce {m : DlqMessage} {f : ℤ → Publisher β}
    {g : ℤ → AccessEventConsumer.Consumer β}
    (h : ∀ result, Does flags (f result).run (g result).run) :
    Does flags (produce m >>= f).run (AccessEventConsumer.produce m >>= g).run :=
  congrArg (Prog.ask (ConsumerOp.produce m)) (funext h)

theorem does_flush {f : ℤ → Publisher β} {g : ℤ × List ℤ → AccessEventConsumer.Consumer β}
    (h : ∀ result reports,
      Does (reports.foldl deliveryCallback flags) (f result).run (g (result, reports)).run) :
    Does flags (flush >>= f).run (AccessEventConsumer.flush >>= g).run :=
  congrArg (Prog.ask ConsumerOp.flush) (funext fun r => h r.1 r.2)

theorem does_storeObserved {observed : Bool} {f : Unit → Publisher β}
    (h : Does { flags with observed } (f ()).run y.run) :
    Does flags (storeObserved observed >>= f).run y.run := h

theorem does_storeError {error : ℤ} {f : Unit → Publisher β}
    (h : Does { flags with error } (f ()).run y.run) :
    Does flags (storeError error >>= f).run y.run := h

theorem does_loadObserved {f : Bool → Publisher β} (h : Does flags (f flags.observed).run y.run) :
    Does flags (loadObserved >>= f).run y.run := h

theorem does_loadError {f : ℤ → Publisher β} (h : Does flags (f flags.error).run y.run) :
    Does flags (loadError >>= f).run y.run := h

theorem does_pure (a : β) :
    Does flags (pure a : Publisher β).run (pure a : AccessEventConsumer.Consumer β).run := rfl

theorem inFlush_bind (p : Prog PublisherOp PublisherOp.Answer α)
    (f : α → Prog PublisherOp PublisherOp.Answer β) (flags : Delivery) :
    inFlush (p.bind f) flags = (inFlush p flags).bind fun r => inFlush (f r.1) r.2 := by
  induction p generalizing flags with
  | ret a => rfl
  | ask op k ih =>
    cases op with
    | now | sleepFor | produce | flush => exact congrArg (Prog.ask _) (funext fun _ => ih _ _)
    | storeObserved | storeError | loadObserved | loadError => exact ih _ _

theorem does_bind {x : Publisher α} {y : AccessEventConsumer.Consumer α}
    (hx : Does flags x.run y.run) (hf : ∀ a flags, Does flags (f a).run (g a).run) :
    Does flags (x >>= f).run (y >>= g).run := by
  change (inFlush (x.run.bind _) flags).bind _ = y.run.bind _
  rw [inFlush_bind, bind_assoc, ← hx, bind_assoc]
  congr 1
  funext r
  obtain ⟨e | a, flags'⟩ := r
  · rfl
  · exact hf a flags'

end Rules

theorem publish_does (json : JsonLibrary) (record : DeadLetterRecord) (flags : Delivery) :
    Does flags (publish json record).run (AccessEventConsumer.publish json record).run := by
  apply does_now
  intro t
  cases serializeDeadLetterRecord json record t with
  | error e => exact does_pure false
  | ok payload =>
    apply does_storeObserved
    apply does_storeError
    apply does_produce
    intro result
    by_cases hresult : result = 0
    · rw [if_neg (not_not.mpr hresult), if_neg (not_not.mpr hresult)]
      apply does_flush
      intro result reports
      dsimp only
      generalize reports.foldl deliveryCallback ⟨false, 0⟩ = delivery
      by_cases hflush : result = 0
      · rw [if_neg (not_not.mpr hflush), hflush]
        apply does_loadObserved
        cases hobserved : delivery.observed with
        | false => exact does_pure false
        | true =>
          apply does_loadError
          exact does_pure (delivery.error == 0)
      · rw [if_pos hflush]
        have hfalse : (result == 0) = false := beq_eq_false_iff_ne.mpr hflush
        rw [hfalse]
        exact does_pure false
    · rw [if_pos hresult, if_pos hresult]
      exact does_pure false

theorem publishAttempts_does (json : JsonLibrary) (config : ConsumerConfig)
    (record : DeadLetterRecord) (n : ℕ) (delayMs : ℤ) (flags : Delivery) :
    Does flags (publishAttempts json config record n delayMs).run
      (AccessEventConsumer.publishAttempts json config record n delayMs).run := by
  induction n generalizing delayMs flags with
  | zero => rfl
  | succ n ih =>
    apply does_bind (publish_does json record flags)
    intro published flags
    by_cases hpublished : published = true
    · rw [if_pos hpublished, if_pos hpublished]
      exact does_pure ()
    · rw [if_neg hpublished, if_neg hpublished]
      by_cases hlast : n = 0
      · rw [if_pos hlast, if_pos hlast]
        exact ih delayMs flags
      · rw [if_neg hlast, if_neg hlast]
        apply does_sleepFor
        exact ih _ flags

/-- Whatever earlier attempts left in the flags does not matter. -/
theorem publishToDeadLetter_does (json : JsonLibrary) (config : ConsumerConfig)
    (message : KafkaMessage) (reason : DeadLetterReason) (flags : Delivery) :
    Does flags (publishToDeadLetter json config message reason).run
      (AccessEventConsumer.publishToDeadLetter json config message reason).run :=
  publishAttempts_does json config _ _ _ flags

/-- The flags, the copies that were accepted and have no report yet, and those that were
reported without error; of the latest call, its record and how many were before it. -/
structure Process where
  deliveryObserved : Bool
  deliveryError : ℤ
  outstanding : List DlqMessage
  acknowledged : List DlqMessage
  call : Option (DeadLetterRecord × ℕ)

def Process.fresh (w : Process) (late : List DlqMessage) : Process :=
  { w with
    deliveryObserved := false
    deliveryError := 0
    outstanding := []
    acknowledged := w.acknowledged ++ late }

/-- A flush that succeeds has nothing left to wait for; one that fails may leave anything. -/
inductive ProcessStep (w : Process) : (op : PublisherOp) → op.Answer → Process → Prop
  | now {t} : ProcessStep w .now t w
  | sleepFor {milliseconds} : ProcessStep w (.sleepFor milliseconds) () w
  | storeObserved {observed} :
      ProcessStep w (.storeObserved observed) () { w with deliveryObserved := observed }
  | storeError {error} : ProcessStep w (.storeError error) () { w with deliveryError := error }
  | loadObserved : ProcessStep w .loadObserved w.deliveryObserved w
  | loadError : ProcessStep w .loadError w.deliveryError w
  | produce {m} : ProcessStep w (.produce m) (0 : ℤ) { w with outstanding := w.outstanding ++ [m] }
  | produceRefused {m} {code : ℤ} : code ≠ 0 → ProcessStep w (.produce m) code w
  | flush : w.outstanding = [] → ProcessStep w .flush (0 : ℤ) w
  | flushFailed {code : ℤ} : code ≠ 0 → ProcessStep w .flush code w

/-- A copy that is outstanding gets its one report, and the callback stores it in the flags. -/
inductive Report (w : Process) : Process → Prop
  | report {before m after} (code : ℤ) : w.outstanding = before ++ m :: after →
      Report w { w with
        deliveryObserved := true
        deliveryError := code
        outstanding := before ++ after
        acknowledged := w.acknowledged ++ if code = 0 then [m] else [] }

/-- One consumer after the other: an exception leaves run and ends the process, and the next one
has a producer of its own. What the last one had outstanding may still be delivered. -/
def consumer (json : JsonLibrary) (config : ConsumerConfig) :
    Machine Unit Process PublisherOp PublisherOp.Answer (Except WriterException Unit)
      (KafkaMessage × DeadLetterReason) where
  step _ := ProcessStep
  prog _ call := (publishToDeadLetter json config call.1 call.2).run
  start _ call w w' := w' =
    { w with call := some (deadLetterRecord config call.1 call.2, w.acknowledged.length) }
  finish _ r w w' := match r with
    | .ok _ => w' = w
    | .error _ => ∃ late ⊆ w.outstanding, w' = w.fresh late
  crash _ w w' := ∃ late ⊆ w.outstanding, w' = w.fresh late
  outside := Report

def initialProcess : Process := ⟨false, 0, [], [], none⟩

section Evidence

variable (json : JsonLibrary) (record : DeadLetterRecord)

def IsCopyOf (m : DlqMessage) : Prop :=
  m.key = record.key ∧ ∃ failedAtMs, serializeDeadLetterRecord json record failedAtMs = .ok m.value

def Delivered (w : Process) : Prop :=
  ∃ n, w.call = some (record, n) ∧ ∃ m ∈ w.acknowledged.drop n, IsCopyOf json record m

structure Publishing (w : Process) : Prop where
  call : ∃ n ≤ w.acknowledged.length, w.call = some (record, n)
  outstanding : ∀ m ∈ w.outstanding, IsCopyOf json record m

/-- Once all copies have their reports, the flags show the last one. -/
structure Awaiting (w : Process) : Prop extends Publishing json record w where
  settled : w.outstanding = [] →
    w.deliveryObserved = true ∧ (w.deliveryError = 0 → Delivered json record w)

/-- Reports are all that happens to the process from outside. -/
def processProtocol : Protocol Unit Process where
  inv _ := True
  rely _ := Relation.ReflTransGen Report
  guar _ _ _ := True
  refl _ _ := .refl
  trans _ _ _ _ := .trans
  compatible hj _ := absurd rfl hj

end Evidence

variable {json : JsonLibrary} {config : ConsumerConfig} {record : DeadLetterRecord}
  {w w' : Process}

theorem stable_of_report {F : Process → Prop} (h : ∀ w w', Report w w' → F w → F w') :
    processProtocol.Stable () F := by
  intro w w' hr hw
  induction hr with
  | refl => exact hw
  | tail _ hreport ih => exact h _ _ hreport ih

theorem Report.delivered (h : Report w w') (hw : Delivered json record w) :
    Delivered json record w' := by
  obtain ⟨code, _⟩ := h
  obtain ⟨n, hcall, m, hm, hcopy⟩ := hw
  refine ⟨n, hcall, m, ?_, hcopy⟩
  rw [List.drop_append]
  exact List.mem_append_left _ hm

theorem Report.publishing (h : Report w w') (hw : Publishing json record w) :
    Publishing json record w' := by
  obtain ⟨code, hout⟩ := h
  obtain ⟨n, hn, hcall⟩ := hw.call
  constructor
  · refine ⟨n, ?_, hcall⟩
    rw [List.length_append]
    omega
  · intro m hm
    apply hw.outstanding m
    rw [hout]
    simp only [List.mem_append, List.mem_cons] at hm ⊢
    tauto

theorem Report.awaiting (h : Report w w') (hw : Awaiting json record w) :
    Awaiting json record w' := by
  refine ⟨h.publishing hw.toPublishing, ?_⟩
  intro _
  obtain @⟨before, m, after, code, hout⟩ := h
  obtain ⟨n, hn, hcall⟩ := hw.call
  refine ⟨rfl, fun hcode => ⟨n, hcall, m, ?_, hw.outstanding m (by simp [hout])⟩⟩
  have hcode : code = 0 := hcode
  simp only [hcode, if_true]
  rw [List.drop_append_of_le_length hn]
  simp

theorem publishing_stable : processProtocol.Stable () (Publishing json record) :=
  stable_of_report fun _ _ h hw => h.publishing hw

theorem awaiting_stable : processProtocol.Stable () (Awaiting json record) :=
  stable_of_report fun _ _ h hw => h.awaiting hw

theorem quiet_stable {F : Process → Prop} :
    processProtocol.Stable () fun w => w.outstanding = [] ∧ F w := by
  apply stable_of_report
  rintro w w' ⟨code, hout⟩ ⟨hquiet, _⟩
  rw [hquiet] at hout
  cases List.nil_eq_append_iff.mp hout |>.2

abbrev SafeFrom {γ : Type} (Q : γ → Process → Prop) (x : Publisher γ) (w : Process) : Prop :=
  Safe processProtocol (fun _ => ProcessStep) () (OnOk Q) x.run w

variable {γ : Type} {Q : γ → Process → Prop} {F : Process → Prop}

theorem safe_op {op : PublisherOp} {f : op.Answer → Publisher γ} (hF : processProtocol.Stable () F)
    (hw : F w) (h : ∀ w₁ r w₂, F w₁ → ProcessStep w₁ op r w₂ → SafeFrom Q (f r) w₂) :
    SafeFrom Q (perform op >>= f) w :=
  safe_perform_bind hF hw fun w₁ r w₂ _ hw₁ hs => ⟨⟨trivial, trivial⟩, h w₁ r w₂ hw₁ hs⟩

/-- A publish that returns true leaves nothing outstanding and a copy delivered; one that returns
false leaves at most copies of its record. -/
def Published (json : JsonLibrary) (record : DeadLetterRecord) (published : Bool) (w : Process) :
    Prop :=
  if published then w.outstanding = [] ∧ Delivered json record w else Publishing json record w

theorem safe_failed (hw : Publishing json record w) :
    SafeFrom (Published json record) (pure false) w :=
  safe_return (fun hr h => publishing_stable hr h) hw

theorem Publishing.storeObserved (hw : Publishing json record w) (observed : Bool) :
    Publishing json record { w with deliveryObserved := observed } := ⟨hw.call, hw.outstanding⟩

theorem Publishing.storeError (hw : Publishing json record w) (error : ℤ) :
    Publishing json record { w with deliveryError := error } := ⟨hw.call, hw.outstanding⟩

theorem Publishing.produce (hw : Publishing json record w) {m : DlqMessage}
    (hm : IsCopyOf json record m) :
    Awaiting json record { w with outstanding := w.outstanding ++ [m] } := by
  refine ⟨⟨hw.call, fun x hx => ?_⟩, fun hempty => ?_⟩
  · rcases List.mem_append.mp hx with hx | hx
    · exact hw.outstanding x hx
    · obtain rfl := List.mem_singleton.mp hx
      exact hm
  · exact absurd hempty (List.append_ne_nil_of_right_ne_nil _ (List.cons_ne_nil m []))

theorem loads_safe (hempty : w.outstanding = []) (hw : Awaiting json record w) :
    SafeFrom (Published json record) (do
      if ← loadObserved then
        let error ← loadError
        pure (error == 0)
      else
        pure false) w := by
  apply safe_op (quiet_stable (F := Awaiting json record)) ⟨hempty, hw⟩
  rintro w₁ r w₂ ⟨hempty₁, hw₁⟩ hstep
  cases hstep with
  | loadObserved =>
    rw [if_pos (hw₁.settled hempty₁).1]
    apply safe_op (quiet_stable (F := Awaiting json record)) ⟨hempty₁, hw₁⟩
    rintro w₂ r w₃ ⟨hempty₂, hw₂⟩ hstep
    cases hstep with
    | loadError =>
      by_cases herror : w₂.deliveryError = 0
      · rw [show (w₂.deliveryError == 0) = true from beq_iff_eq.mpr herror]
        exact safe_return quiet_stable ⟨hempty₂, (hw₂.settled hempty₂).2 herror⟩
      · rw [show (w₂.deliveryError == 0) = false from beq_eq_false_iff_ne.mpr herror]
        exact safe_failed hw₂.toPublishing

theorem publish_safe (hw : Publishing json record w) :
    SafeFrom (Published json record) (publish json record) w := by
  apply safe_op publishing_stable hw
  rintro w₁ failedAtMs w₂ hw₁ hstep
  cases hstep with
  | now =>
    cases hserialized : serializeDeadLetterRecord json record failedAtMs with
    | error e => exact safe_failed hw₁
    | ok payload =>
      -- the flags forget the earlier attempts
      apply safe_op publishing_stable hw₁
      rintro w₂ _ w₃ hw₂ hstep
      cases hstep with
      | storeObserved =>
        apply safe_op publishing_stable (hw₂.storeObserved false)
        rintro w₃ _ w₄ hw₃ hstep
        cases hstep with
        | storeError =>
          apply safe_op publishing_stable (hw₃.storeError 0)
          rintro w₄ code w₅ hw₄ hstep
          cases hstep with
          | produceRefused hcode =>
            rw [if_pos hcode]
            exact safe_failed hw₄
          | produce =>
            rw [if_neg (not_not.mpr rfl)]
            apply safe_op awaiting_stable (hw₄.produce ⟨rfl, failedAtMs, hserialized⟩)
            rintro w₅ code w₆ hw₅ hstep
            cases hstep with
            | flushFailed hcode =>
              rw [if_pos hcode]
              exact safe_failed hw₅.toPublishing
            | flush hempty =>
              rw [if_neg (not_not.mpr rfl)]
              exact loads_safe hempty hw₅

theorem publishAttempts_safe (n : ℕ) (delayMs : ℤ) (hw : Publishing json record w) :
    SafeFrom (fun _ w => w.outstanding = [] ∧ Delivered json record w)
      (publishAttempts json config record n delayMs) w := by
  induction n generalizing delayMs w with
  | zero => exact safe_raise
  | succ n ih =>
    apply safe_bind_ok (publish_safe hw)
    intro published w₁ hw₁
    by_cases hpublished : published = true
    · rw [Published, if_pos hpublished] at hw₁
      rw [if_pos hpublished]
      exact safe_return quiet_stable hw₁
    · rw [Published, if_neg hpublished] at hw₁
      rw [if_neg hpublished]
      by_cases hlast : n = 0
      · rw [if_pos hlast]
        exact ih delayMs hw₁
      · rw [if_neg hlast]
        apply safe_op publishing_stable hw₁
        rintro w₂ _ w₃ hw₂ hstep
        cases hstep with
        | sleepFor => exact ih _ hw₂

theorem idle_stable : processProtocol.Stable () fun w => w.outstanding = [] :=
  fun hr h => (quiet_stable (F := fun _ => True) hr ⟨h, trivial⟩).1

theorem consumer_verified (json : JsonLibrary) (config : ConsumerConfig) :
    (consumer json config).Verified processProtocol (fun _ w => w.outstanding = [])
      (fun _ => OnOk fun _ w => w.outstanding = [] ∧ ∃ record, Delivered json record w) := by
  constructor
  · exact fun h hr => idle_stable hr h
  · rintro _ call w _ _ hidle rfl
    refine ⟨⟨trivial, trivial⟩, ?_⟩
    have hpublishing : Publishing json (deadLetterRecord config call.1 call.2) { w with
        call := some (deadLetterRecord config call.1 call.2, w.acknowledged.length) } := by
      refine ⟨⟨_, le_refl _, rfl⟩, ?_⟩
      intro m hm
      rw [show w.outstanding = [] from hidle] at hm
      cases hm
    apply safe_mono (publishAttempts_safe _ _ hpublishing)
    rintro (e | _) w₁ _ hw₁
    · trivial
    · exact ⟨hw₁.1, _, hw₁.2⟩
  · rintro _ (e | _) w w' _ hpost hfinish
    · obtain ⟨late, _, rfl⟩ := hfinish
      exact ⟨⟨trivial, trivial⟩, rfl⟩
    · obtain rfl := hfinish
      exact ⟨⟨trivial, trivial⟩, hpost.1⟩
  · rintro _ w w' _ ⟨late, _, rfl⟩
    exact ⟨⟨trivial, trivial⟩, rfl⟩
  · intro w w' _ hreport
    exact ⟨trivial, fun _ => .single hreport⟩

/-- Whatever earlier attempts left outstanding and whenever their reports come, a call that
returns has had a copy of its record acknowledged. -/
theorem dead_letters_delivered (json : JsonLibrary) (config : ConsumerConfig)
    (s : Pool Unit Process PublisherOp PublisherOp.Answer (Except WriterException Unit))
    (hs : (consumer json config).Reachable initialProcess s)
    (hreturned : s.thread () = some (.ret (.ok ()))) :
    ∃ record, Delivered json record s.world := by
  have hthread := ((consumer_verified json config).reachable trivial (fun _ => rfl) hs).2 ()
  rw [hreturned] at hthread
  exact (hthread s.world .refl trivial).2

open ConsumerGroup (demoJson demoConfig demoEnvelope)

def demoMessage : KafkaMessage := ⟨0, 0, ascii "k", ascii "x"⟩

def demoRecord : DeadLetterRecord := deadLetterRecord demoConfig demoMessage .invalidJson

def demoCopy : DlqMessage := ⟨ascii "k", demoEnvelope⟩

theorem dead_letters_delivered_demo : ∃ s,
    (consumer demoJson demoConfig).Reachable initialProcess s ∧
    s.thread () = some (.ret (.ok ())) ∧ ∃ record, Delivered demoJson record s.world := by
  have hstart := Machine.Reachable.init.next
    (.start (M := consumer demoJson demoConfig) ⟨initialProcess, fun _ => none⟩ ()
      (demoMessage, .invalidJson) _ rfl rfl)
  have hfirst : CallSeq (fun _ : Unit => ProcessStep) ()
      (publishToDeadLetter demoJson demoConfig demoMessage .invalidJson).run
      ⟨false, 0, [], [], some (demoRecord, 0)⟩
      (publishAttempts demoJson demoConfig demoRecord 4 200).run
      ⟨false, 0, [demoCopy], [], some (demoRecord, 0)⟩ := by
    refine .call (5 : ℤ) .now (.call () .storeObserved (.call () .storeError ?_))
    refine .call (0 : ℤ) (.produce (m := demoCopy)) ?_
    exact .call (-185 : ℤ) (.flushFailed (by decide)) (.call () .sleepFor (.done _ _))
  have hlate : Report ⟨false, 0, [demoCopy], [], some (demoRecord, 0)⟩
      ⟨true, -192, [], [], some (demoRecord, 0)⟩ := @Report.report _ [] demoCopy [] (-192) rfl
  obtain ⟨waiting, hsecond, hlast⟩ : ∃ waiting,
      CallSeq (fun _ : Unit => ProcessStep) ()
        (publishAttempts demoJson demoConfig demoRecord 4 200).run
        ⟨true, -192, [], [], some (demoRecord, 0)⟩ waiting
        ⟨false, 0, [demoCopy], [], some (demoRecord, 0)⟩ ∧
      CallSeq (fun _ : Unit => ProcessStep) () waiting
        ⟨true, 0, [], [demoCopy], some (demoRecord, 0)⟩ (.ret (.ok ()))
        ⟨true, 0, [], [demoCopy], some (demoRecord, 0)⟩ := by
    refine ⟨_, .call (5 : ℤ) .now (.call () .storeObserved (.call () .storeError
      (.call (0 : ℤ) (.produce (m := demoCopy)) (.done _ _)))), ?_⟩
    exact .call (0 : ℤ) (.flush rfl) (.call true .loadObserved (.call (0 : ℤ) .loadError
      (.done _ _)))
  have hreport : Report ⟨false, 0, [demoCopy], [], some (demoRecord, 0)⟩
      ⟨true, 0, [], [demoCopy], some (demoRecord, 0)⟩ := @Report.report _ [] demoCopy [] 0 rfl
  have hwaiting := ((hstart.calls rfl hfirst).next (.outside _ _ hlate)).calls rfl hsecond
  have hdone := (hwaiting.next (.outside _ _ hreport)).calls rfl hlast
  exact ⟨_, hdone, rfl, dead_letters_delivered demoJson demoConfig _ hdone rfl⟩

end DeadLetterDelivery
