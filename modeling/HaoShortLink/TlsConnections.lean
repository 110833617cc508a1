import HaoShortLink.HttpCallbacks

/-! SslConnection.cpp, and HttpServer.cpp with useSSL: how one connection's input goes to OpenSSL
and to the parser, and what is sent on it. Only SslConnection::send empties writeBio_, so what a
handshake puts there waits for the first response. The connection's entry of sslConns_ is taken to
be found: another loop that changes the map meanwhile is not modelled. -/
namespace TlsConnections

open Cpp HttpResponses
open HttpServers (Effect)

inductive SSLState where
  | handshake
  | established
  | shutdown
  | error
  deriving DecidableEq, Repr

/-- How SSL_do_handshake ends. -/
inductive Handshake where
  | done
  | wants
  | failed
  deriving DecidableEq

/-- OpenSSL on one connection, with its two memory BIOs. -/
structure OpenSsl where
  /-- SSL_do_handshake, by everything that was written to readBio_ before. -/
  handshake : Bytes → Handshake
  /-- What successive calls of SSL_read return once this was written to readBio_. -/
  reads : Bytes → List Bytes
  reads_short : ∀ b, ∀ data ∈ reads b, data ≠ [] ∧ data.length ≤ 4096
  /-- What the n-th call puts into writeBio_, given the bytes to write. -/
  output : ℕ → Bytes → Bytes
  /-- Whether the n-th call, an SSL_write of these bytes, succeeds. -/
  writes : ℕ → Bytes → Bool

/-- What is passed to TcpConnection::send. -/
inductive Sent where
  /-- Read from writeBio_. -/
  | drained (b : Bytes)
  /-- The bytes of a response itself. -/
  | plain (response : HttpResponse)
  deriving DecidableEq

/-- The last three fields only record what happened. -/
structure Connection where
  sslState : SSLState := .handshake
  handshakeFailed : Bool := false
  /-- All that was written to readBio_. -/
  readBio : Bytes := []
  writeBio : Bytes := []
  /-- The calls of OpenSSL, and those of SSL_read that returned something. -/
  calls : ℕ := 0
  reads : ℕ := 0
  inputBuffer : Bytes := []
  /-- The connection's HttpContext; decryptedBuffer_ is its buffer. -/
  http : HttpServers.Connection := {}
  sent : List Sent := []
  /-- All that OpenSSL put into writeBio_. -/
  produced : Bytes := []
  /-- The bytes that parseRequest was given, and those that it took. -/
  handed : Bytes := []
  taken : Bytes := []

structure HttpServer where
  ssl : OpenSsl
  http : HttpCallbacks.HttpServer

def plain? : Effect → Option Sent
  | .dispatched _ => none
  | .answered response => some (.plain response)
  | .rejected response => some (.plain response)

/-- The loop that empties writeBio_ through a buffer of 4096 bytes. -/
def drain (b : Bytes) : List Bytes :=
  if b = [] then [] else b.take 4096 :: drain (b.drop 4096)
termination_by b.length
decreasing_by
  have := List.length_pos_iff.mpr ‹b ≠ []›
  simp only [List.length_drop]
  omega

namespace HttpServer

/-- Any call of OpenSSL may put something into writeBio_. -/
def call (s : HttpServer) (c : Connection) (data : Bytes) : Connection :=
  { c with
    calls := c.calls + 1
    writeBio := c.writeBio ++ s.ssl.output c.calls data
    produced := c.produced ++ s.ssl.output c.calls data }

def handleHandshake (s : HttpServer) (c : Connection) : Connection :=
  match s.ssl.handshake c.readBio with
  | .done => { s.call c [] with sslState := .established }
  | .wants => s.call c []
  | .failed => { s.call c [] with handshakeFailed := true }

def send (s : HttpServer) (c : Connection) (data : Bytes) : Connection :=
  if c.sslState ≠ .established then c
  else if s.ssl.writes c.calls data then
    { s.call c data with
      writeBio := []
      sent := c.sent ++ (drain (s.call c data).writeBio).map .drained }
  else s.call c data

/-- HttpServer::onMessage behind its call of onRead. -/
def afterRead (s : HttpServer) (c : Connection) : Option Connection :=
  if c.sslState ≠ .established then some c
  else if c.http.buffer = [] then some c
  else (s.http.onMessage c.http []).map fun http =>
    { c with
      http := http
      sent := c.sent ++ (http.effects.drop c.http.effects.length).filterMap plain?
      handed := c.taken ++ c.http.buffer
      taken := c.taken ++ c.http.buffer.take (c.http.buffer.length - http.buffer.length) }

/-- SslConnection::onRead, with what is left in the buffer it was given. -/
def onRead (s : HttpServer) (c : Connection) (buf : Bytes) : Option (Connection × Bytes) :=
  match c.sslState with
  | .handshake => some (s.handleHandshake { c with readBio := c.readBio ++ buf }, [])
  | .established =>
    match _h : (s.ssl.reads c.readBio)[c.reads]? with
    | none => some (s.call c [], buf)
    | some data =>
      -- messageCallback_ is HttpServer::onMessage, which calls onRead again
      ((onRead s { s.call c [] with reads := c.reads + 1 } data).bind fun p =>
        s.afterRead p.1).map fun c' => (c', buf)
  | .shutdown => some (c, buf)
  | .error => some (c, buf)
termination_by (s.ssl.reads c.readBio).length - c.reads
decreasing_by
  have := (List.getElem?_eq_some_iff.mp _h).1
  simp only [call]
  omega

def onMessage (s : HttpServer) (c : Connection) (buf : Bytes) : Option Connection :=
  (s.onRead c buf).bind fun p => s.afterRead p.1

/-- The connection callback: an SslConnection takes the connection's messages and starts the
handshake. -/
def onConnection (s : HttpServer) : Connection := s.handleHandshake {}

end HttpServer

inductive Event where
  | received (chunk : Bytes)
  /-- SslConnection::send is called. -/
  | send (data : Bytes)

def step (s : HttpServer) (c : Connection) : Event → Option Connection
  | .received chunk => (s.onRead c (c.inputBuffer ++ chunk)).map fun p =>
      { p.1 with inputBuffer := p.2 }
  | .send data => some (s.send c data)

def run (s : HttpServer) (events : List Event) : Option Connection :=
  events.foldlM (step s) s.onConnection

def cipher : Sent → Bytes
  | .drained b => b
  | .plain _ => []

/-- The parser was never called, and what was sent is what left writeBio_. -/
structure Sealed (c : Connection) : Prop where
  untouched : c.http = {}
  handed_nil : c.handed = []
  drained_only : ∀ out ∈ c.sent, ∃ b, out = .drained b
  accounted : c.sent.flatMap cipher ++ c.writeBio = c.produced

/-- What a call of onRead in the established state leaves alone. -/
structure Established (c c' : Connection) : Prop where
  sealed : Sealed c'
  sslState : c'.sslState = .established
  readBio : c'.readBio = c.readBio
  inputBuffer : c'.inputBuffer = c.inputBuffer

section Calls

variable {s : HttpServer} {c : Connection}

theorem flatten_drain (b : Bytes) : (drain b).flatten = b := by
  induction b using drain.induct with
  | case1 => rw [drain, if_pos rfl, List.flatten_nil]
  | case2 b hb ih => rw [drain, if_neg hb, List.flatten_cons, ih, List.take_append_drop]

theorem cipher_drained (pieces : List Bytes) :
    (pieces.map Sent.drained).flatMap cipher = pieces.flatten := by
  induction pieces with
  | nil => rfl
  | cons b pieces ih => rw [List.map_cons, List.flatMap_cons, ih, cipher, List.flatten_cons]

theorem Sealed.call (h : Sealed c) (data : Bytes) : Sealed (s.call c data) := by
  refine ⟨h.untouched, h.handed_nil, h.drained_only, ?_⟩
  change c.sent.flatMap cipher ++ (c.writeBio ++ _) = c.produced ++ _
  rw [← List.append_assoc, h.accounted]

theorem Sealed.handleHandshake (h : Sealed c) : Sealed (s.handleHandshake c) := by
  obtain ⟨huntouched, hhanded, hdrained, haccounted⟩ := h.call (s := s) []
  unfold HttpServer.handleHandshake
  cases s.ssl.handshake c.readBio with
  | done => exact ⟨huntouched, hhanded, hdrained, haccounted⟩
  | wants => exact ⟨huntouched, hhanded, hdrained, haccounted⟩
  | failed => exact ⟨huntouched, hhanded, hdrained, haccounted⟩

theorem Sealed.send (h : Sealed c) (data : Bytes) : Sealed (s.send c data) := by
  have hcall := h.call (s := s) data
  unfold HttpServer.send
  split
  · exact h
  · split
    · refine ⟨h.untouched, h.handed_nil, ?_, ?_⟩
      · intro out hout
        rcases List.mem_append.mp hout with hold | hnew
        · exact h.drained_only out hold
        · obtain ⟨b, -, rfl⟩ := List.mem_map.mp hnew
          exact ⟨b, rfl⟩
      · dsimp only
        rw [List.append_nil, List.flatMap_append, cipher_drained, flatten_drain]
        exact hcall.accounted
    · exact hcall

/-- decryptedBuffer_ is never filled, so that onMessage stops there. -/
theorem Sealed.afterRead (h : Sealed c) : s.afterRead c = some c := by
  unfold HttpServer.afterRead
  split
  · rfl
  · rw [if_pos (by rw [h.untouched])]

theorem onRead_handshake (hstate : c.sslState = .handshake) (buf : Bytes) : s.onRead c buf =
    some (s.handleHandshake { c with readBio := c.readBio ++ buf }, []) := by
  rw [HttpServer.onRead]
  split <;> simp_all

theorem onRead_starved (hstate : c.sslState = .established)
    (hread : (s.ssl.reads c.readBio)[c.reads]? = none) (buf : Bytes) :
    s.onRead c buf = some (s.call c [], buf) := by
  rw [HttpServer.onRead]
  split
  · simp_all
  · split <;> simp_all
  · simp_all
  · simp_all

theorem onRead_data (hstate : c.sslState = .established) {data : Bytes}
    (hread : (s.ssl.reads c.readBio)[c.reads]? = some data) (buf : Bytes) :
    s.onRead c buf =
      (s.onMessage { s.call c [] with reads := c.reads + 1 } data).map fun c' => (c', buf) := by
  rw [HttpServer.onRead]
  split
  · simp_all
  · split
    · simp_all
    · next hsome =>
      rw [hread] at hsome
      cases hsome
      rfl
  · simp_all
  · simp_all

/-- Whatever SSL_read returns, nothing comes of it and the input stays where it is. -/
theorem onRead_established (s : HttpServer) {c : Connection} (hsealed : Sealed c)
    (hstate : c.sslState = .established) (buf : Bytes) :
    ∃ c', s.onRead c buf = some (c', buf) ∧ Established c c' := by
  induction hn : (s.ssl.reads c.readBio).length - c.reads generalizing c buf with
  | zero =>
    have hnone : (s.ssl.reads c.readBio)[c.reads]? = none :=
      List.getElem?_eq_none_iff.mpr (Nat.le_of_sub_eq_zero hn)
    exact ⟨_, onRead_starved hstate hnone buf, hsealed.call [], hstate, rfl, rfl⟩
  | succ n ih =>
    have hlt : c.reads < (s.ssl.reads c.readBio).length := by omega
    have hsome := List.getElem?_eq_getElem hlt
    have hless : (s.ssl.reads c.readBio).length - (c.reads + 1) = n := by omega
    obtain ⟨huntouched, hhanded, hdrained, haccounted⟩ := hsealed.call (s := s) []
    obtain ⟨c', hread, hkept⟩ := ih (c := { s.call c [] with reads := c.reads + 1 })
      ⟨huntouched, hhanded, hdrained, haccounted⟩ hstate (s.ssl.reads c.readBio)[c.reads] hless
    refine ⟨c', ?_, hkept.sealed, hkept.sslState, hkept.readBio, hkept.inputBuffer⟩
    rw [onRead_data hstate hsome, HttpServer.onMessage, hread, Option.bind_some,
      hkept.sealed.afterRead]
    rfl

theorem onRead_sealed (s : HttpServer) {c : Connection} (h : Sealed c) (buf : Bytes) :
    ∃ c' rest, s.onRead c buf = some (c', rest) ∧ Sealed c' := by
  cases hstate : c.sslState with
  | handshake =>
    have hwritten : Sealed { c with readBio := c.readBio ++ buf } :=
      ⟨h.untouched, h.handed_nil, h.drained_only, h.accounted⟩
    exact ⟨_, _, onRead_handshake hstate buf, hwritten.handleHandshake⟩
  | established =>
    obtain ⟨c', hread, hkept⟩ := onRead_established s h hstate buf
    exact ⟨c', buf, hread, hkept.sealed⟩
  | shutdown =>
    refine ⟨c, buf, ?_, h⟩
    rw [HttpServer.onRead]
    split <;> simp_all
  | error =>
    refine ⟨c, buf, ?_, h⟩
    rw [HttpServer.onRead]
    split <;> simp_all

end Calls

theorem onConnection_sealed (s : HttpServer) : Sealed s.onConnection :=
  Sealed.handleHandshake ⟨rfl, rfl, by simp, rfl⟩

theorem step_sealed (s : HttpServer) {c : Connection} (h : Sealed c) (e : Event) :
    ∃ c', step s c e = some c' ∧ Sealed c' := by
  cases e with
  | received chunk =>
    obtain ⟨c', rest, hread, hsealed⟩ := onRead_sealed s h (c.inputBuffer ++ chunk)
    refine ⟨{ c' with inputBuffer := rest }, ?_, ?_⟩
    · simp only [step, hread, Option.map_some]
    · exact ⟨hsealed.untouched, hsealed.handed_nil, hsealed.drained_only, hsealed.accounted⟩
  | send data => exact ⟨_, rfl, h.send data⟩

theorem run_snoc (s : HttpServer) (events : List Event) (e : Event) :
    run s (events ++ [e]) = (run s events).bind fun c => step s c e := by
  rw [run, run, List.foldlM_append]
  apply congrArg
  funext c
  simp

theorem run_sealed (s : HttpServer) (events : List Event) :
    ∃ c, run s events = some c ∧ Sealed c := by
  induction events using List.reverseRecOn with
  | nil => exact ⟨_, rfl, onConnection_sealed s⟩
  | append_singleton events e ih =>
    obtain ⟨c, hrun, hsealed⟩ := ih
    obtain ⟨c', hstep, hsealed'⟩ := step_sealed s hsealed e
    exact ⟨c', by rw [run_snoc, hrun, Option.bind_some, hstep], hsealed'⟩

/-- In every run all that was sent was read from writeBio_, in the order in which OpenSSL put it
there, and no response was sent as it is. -/
theorem output_encrypted (s : HttpServer) (events : List Event) :
    ∃ c, run s events = some c ∧ (∀ out ∈ c.sent, ∃ b, out = .drained b) ∧
      c.sent.flatMap cipher ++ c.writeBio = c.produced := by
  obtain ⟨c, hrun, hsealed⟩ := run_sealed s events
  exact ⟨c, hrun, hsealed.drained_only, hsealed.accounted⟩

/-- No request that comes over TLS is parsed, whatever OpenSSL decrypts. -/
theorem nothing_parsed (s : HttpServer) (events : List Event) :
    ∃ c, run s events = some c ∧ c.handed = [] ∧ c.http = {} := by
  obtain ⟨c, hrun, hsealed⟩ := run_sealed s events
  exact ⟨c, hrun, hsealed.handed_nil, hsealed.untouched⟩

def received (s : HttpServer) (chunks : List Bytes) : Option Connection :=
  run s (chunks.map .received)

/-- The handshake is complete while chunks are still to come. -/
def CompleteBeforeEnd (s : HttpServer) (chunks : List Bytes) : Prop :=
  ∃ before after, chunks = before ++ after ∧ after ≠ [] ∧ s.ssl.handshake before.flatten = .done

inductive Phase (s : HttpServer) (chunks : List Bytes) (c : Connection) : Prop where
  | handshaking : c.sslState = .handshake → c.inputBuffer = [] → ¬ CompleteBeforeEnd s chunks →
      s.ssl.handshake chunks.flatten ≠ .done → Phase s chunks c
  | complete : c.sslState = .established → c.inputBuffer = [] → ¬ CompleteBeforeEnd s chunks →
      s.ssl.handshake chunks.flatten = .done → Phase s chunks c
  | late : c.sslState = .established → c.inputBuffer ≠ [] → CompleteBeforeEnd s chunks →
      Phase s chunks c

structure Progress (s : HttpServer) (chunks : List Bytes) (c : Connection) : Prop where
  sealed : Sealed c
  kept : c.readBio ++ c.inputBuffer = chunks.flatten
  phase : Phase s chunks c

section Progress

variable {s : HttpServer} {c : Connection} {chunks : List Bytes} {chunk : Bytes}

theorem not_completeBeforeEnd_nil : ¬ CompleteBeforeEnd s [] := by
  rintro ⟨before, after, hsplit, hafter, -⟩
  exact hafter (List.append_eq_nil_iff.mp hsplit.symm).2

theorem completeBeforeEnd_snoc : CompleteBeforeEnd s (chunks ++ [chunk]) ↔
    CompleteBeforeEnd s chunks ∨ s.ssl.handshake chunks.flatten = .done := by
  constructor
  · rintro ⟨before, after, hsplit, hafter, hdone⟩
    rcases List.eq_nil_or_concat after with rfl | ⟨init, last, rfl⟩
    · exact absurd rfl hafter
    · rw [List.concat_eq_append, ← List.append_assoc] at hsplit
      obtain ⟨rfl, -⟩ := List.append_inj' hsplit rfl
      by_cases hinit : init = []
      · subst hinit
        rw [List.append_nil]
        exact .inr hdone
      · exact .inl ⟨before, init, rfl, hinit, hdone⟩
  · rintro (⟨before, after, rfl, hafter, hdone⟩ | hdone)
    · exact ⟨before, after ++ [chunk], by simp, by simp, hdone⟩
    · exact ⟨chunks, [chunk], rfl, by simp, hdone⟩

theorem handleHandshake_inputBuffer (hinput : c.inputBuffer = []) :
    { s.handleHandshake c with inputBuffer := [] } = s.handleHandshake c := by
  unfold HttpServer.handleHandshake HttpServer.call
  cases s.ssl.handshake c.readBio <;> simp [hinput]

theorem progress_handshake (hsealed : Sealed c) (hinput : c.inputBuffer = [])
    (hwritten : c.readBio = chunks.flatten)
    (hstate : c.sslState = .handshake) (hearly : ¬ CompleteBeforeEnd s chunks) :
    Progress s chunks (s.handleHandshake c) := by
  have hafter := hsealed.handleHandshake (s := s)
  have hkept : (s.handleHandshake c).readBio = chunks.flatten ∧
      (s.handleHandshake c).inputBuffer = [] := by
    unfold HttpServer.handleHandshake
    cases s.ssl.handshake c.readBio <;> exact ⟨hwritten, hinput⟩
  obtain ⟨hbio, hbuffer⟩ := hkept
  refine ⟨hafter, by rw [hbio, hbuffer, List.append_nil], ?_⟩
  cases hend : s.ssl.handshake chunks.flatten with
  | done =>
    refine .complete ?_ hbuffer hearly hend
    simp only [HttpServer.handleHandshake, hwritten, hend]
  | wants =>
    refine .handshaking ?_ hbuffer hearly (by simp [hend])
    simp only [HttpServer.handleHandshake, hwritten, hend]
    exact hstate
  | failed =>
    refine .handshaking ?_ hbuffer hearly (by simp [hend])
    simp only [HttpServer.handleHandshake, hwritten, hend]
    exact hstate

theorem progress_established (hc : Progress s chunks c) (hstate : c.sslState = .established)
    (hchunk : chunk ≠ []) (hcomplete : CompleteBeforeEnd s (chunks ++ [chunk])) :
    ∃ c', step s c (.received chunk) = some c' ∧ Progress s (chunks ++ [chunk]) c' := by
  obtain ⟨c', hread, hkept⟩ := onRead_established s hc.sealed hstate (c.inputBuffer ++ chunk)
  refine ⟨{ c' with inputBuffer := c.inputBuffer ++ chunk }, ?_, ?_, ?_, ?_⟩
  · simp only [step, hread, Option.map_some]
  · obtain ⟨huntouched, hhanded, hdrained, haccounted⟩ := hkept.sealed
    exact ⟨huntouched, hhanded, hdrained, haccounted⟩
  · dsimp only
    rw [hkept.readBio, ← List.append_assoc, hc.kept, List.flatten_append, List.flatten_singleton]
  · exact .late hkept.sslState (by simp [hchunk]) hcomplete

theorem progress_step (hc : Progress s chunks c) (hchunk : chunk ≠ []) :
    ∃ c', step s c (.received chunk) = some c' ∧ Progress s (chunks ++ [chunk]) c' := by
  cases hc.phase with
  | handshaking hstate hinput hearly hopen =>
    have hwritten : c.readBio = chunks.flatten := by
      rw [← hc.kept, hinput, List.append_nil]
    refine ⟨s.handleHandshake { c with readBio := c.readBio ++ chunk }, ?_, ?_⟩
    · have hread := onRead_handshake (s := s) hstate (c.inputBuffer ++ chunk)
      rw [hinput, List.nil_append] at hread
      simp only [step, hinput, List.nil_append, hread, Option.map_some, Option.some.injEq]
      exact handleHandshake_inputBuffer rfl
    · apply progress_handshake
      · exact ⟨hc.sealed.untouched, hc.sealed.handed_nil, hc.sealed.drained_only,
          hc.sealed.accounted⟩
      · exact hinput
      · simp [hwritten]
      · exact hstate
      · rw [completeBeforeEnd_snoc]
        exact not_or.mpr ⟨hearly, hopen⟩
  | complete hstate hinput hearly hdone =>
    exact progress_established hc hstate hchunk (completeBeforeEnd_snoc.mpr (.inr hdone))
  | late hstate hinput hcomplete =>
    exact progress_established hc hstate hchunk (completeBeforeEnd_snoc.mpr (.inl hcomplete))

theorem received_progress (hchunks : ∀ chunk ∈ chunks, chunk ≠ []) :
    ∃ c, received s chunks = some c ∧ Progress s chunks c := by
  induction chunks using List.reverseRecOn with
  | nil =>
    exact ⟨_, rfl,
      progress_handshake ⟨rfl, rfl, by simp, rfl⟩ rfl rfl rfl not_completeBeforeEnd_nil⟩
  | append_singleton chunks chunk ih =>
    obtain ⟨c, hrun, hc⟩ := ih (fun x hx => hchunks x (List.mem_append_left _ hx))
    obtain ⟨c', hstep, hc'⟩ := progress_step hc (hchunks chunk (by simp))
    refine ⟨c', ?_, hc'⟩
    rw [received, List.map_append, List.map_singleton, run_snoc]
    rw [received] at hrun
    rw [hrun, Option.bind_some, hstep]

theorem reads_flatten_eq_nil (ssl : OpenSsl) (b : Bytes) :
    (ssl.reads b).flatten = [] ↔ ssl.reads b = [] := by
  constructor
  · intro h
    rw [List.flatten_eq_nil_iff] at h
    exact List.eq_nil_iff_forall_not_mem.mpr fun data hdata =>
      (ssl.reads_short b data hdata).1 (h data hdata)
  · intro h
    rw [h, List.flatten_nil]

/-- All input is written to readBio_ and leaves the input buffer, and the parser is given the
plaintext of it, exactly where the handshake is not complete while there is more to come and
OpenSSL has no plaintext to yield: what it would yield is never asked for. -/
theorem input_reaches_parser_iff (s : HttpServer) (chunks : List Bytes)
    (hchunks : ∀ chunk ∈ chunks, chunk ≠ []) : ∃ c, received s chunks = some c ∧
      (c.readBio = chunks.flatten ∧ c.inputBuffer = [] ∧
          c.handed = (s.ssl.reads c.readBio).flatten ↔
        ¬ CompleteBeforeEnd s chunks ∧ s.ssl.reads chunks.flatten = []) := by
  obtain ⟨c, hrun, hc⟩ := received_progress (s := s) hchunks
  refine ⟨c, hrun, ?_⟩
  have hhanded : c.handed = (s.ssl.reads c.readBio).flatten ↔ s.ssl.reads c.readBio = [] := by
    rw [hc.sealed.handed_nil, eq_comm, reads_flatten_eq_nil]
  have htaken (hinput : c.inputBuffer = []) : c.readBio = chunks.flatten := by
    rw [← hc.kept, hinput, List.append_nil]
  have hearly : c.inputBuffer = [] ↔ ¬ CompleteBeforeEnd s chunks := by
    cases hc.phase with
    | handshaking hstate hinput hearly hopen => exact iff_of_true hinput hearly
    | complete hstate hinput hearly hdone => exact iff_of_true hinput hearly
    | late hstate hinput hcomplete => exact iff_of_false hinput (not_not.mpr hcomplete)
  rw [hhanded, ← hearly]
  constructor
  · intro h
    obtain ⟨hbio, hinput, hreads⟩ := h
    exact ⟨hinput, hbio ▸ hreads⟩
  · intro h
    obtain ⟨hinput, hreads⟩ := h
    have hbio := htaken hinput
    exact ⟨hbio, hinput, hbio ▸ hreads⟩

end Progress

/-- A handshake that is complete after one byte, and then a record that holds a request. -/
def demoSsl : OpenSsl where
  handshake := fun b => if b = [] then .wants else .done
  reads := fun b => if b.length < 2 then [] else [ascii "GET / HTTP/1.1\r\n\r\n"]
  reads_short := by
    intro b data hdata
    split at hdata
    · cases hdata
    · rw [List.mem_singleton.mp hdata]
      decide
  output := fun _ data => data
  writes := fun _ _ => true

def demoServer : HttpServer := ⟨demoSsl, HttpCallbacks.throwing⟩

theorem input_reaches_parser_demo : ∃ c, received demoServer [[22]] = some c ∧
    (c.readBio = [[22]].flatten ∧ c.inputBuffer = [] ∧
        c.handed = (demoSsl.reads c.readBio).flatten ↔
      ¬ CompleteBeforeEnd demoServer [[22]] ∧ demoSsl.reads [[22]].flatten = []) :=
  input_reaches_parser_iff demoServer [[22]] (by decide)

/-- The first chunk behind the handshake stays in the input buffer. -/
theorem input_left_behind : ¬ ∀ (s : HttpServer) (chunks : List Bytes),
    (∀ chunk ∈ chunks, chunk ≠ []) → ∃ c, received s chunks = some c ∧
      c.readBio = chunks.flatten ∧ c.inputBuffer = [] ∧
      c.handed = (s.ssl.reads c.readBio).flatten := by
  intro h
  obtain ⟨c, hrun, hbio, hinput, -⟩ := h demoServer [[22], [23]] (by decide)
  have hcomplete : CompleteBeforeEnd demoServer [[22], [23]] :=
    ⟨[[22]], [[23]], rfl, by simp, rfl⟩
  have hnonempty : ∀ chunk ∈ [[22], [23]], chunk ≠ ([] : Bytes) := by decide
  obtain ⟨d, hrun', hd⟩ := received_progress (s := demoServer) hnonempty
  rw [hrun] at hrun'
  cases hrun'
  cases hd.phase with
  | handshaking _ _ hearly _ => exact hearly hcomplete
  | complete _ _ hearly _ => exact hearly hcomplete
  | late _ hlate _ => exact hlate hinput

end TlsConnections
