import HaoShortLink.AuthHttp
import HaoShortLink.Cookies
import HaoShortLink.Sessions
import HaoShortLink.StringPositions

/-! Which cookie the API and the framework take for their session. -/
namespace SessionCookies

open Cpp Actions HttpRequests ServerStates ServerStates.Server StringPositions
open AuthHttp (setSessionCookie secureSuffix)
open AuthRepositories (User)
open AuthServices (AuthenticatedSession createSession generateToken toHex)

def skip (cookie : Bytes) (begin : ℕ) : ℕ :=
  if h : begin < cookie.length then
    if cookie[begin] == 59 || isSpace cookie[begin] then skip cookie (begin + 1) else begin
  else begin
termination_by cookie.length - begin

theorem le_skip (cookie : Bytes) (begin : ℕ) : begin ≤ skip cookie begin := by
  induction begin using skip.induct cookie with
  | case1 begin h hskipped ih =>
    rw [skip, dif_pos h, if_pos hskipped]
    omega
  | case2 begin h hkept => rw [skip, dif_pos h, if_neg hkept]
  | case3 begin h => rw [skip, dif_neg h]

def valueOf (item name : Bytes) : Option Bytes :=
  match find item 61 0 with
  | none => none
  | some equals =>
    if slice item 0 (some equals) = name then some (slice item (equals + 1) none) else none

def scan (cookie name : Bytes) (begin : ℕ) : Bytes :=
  if begin < cookie.length then
    let start := skip cookie begin
    match valueOf (slice cookie start (find cookie 59 start)) name with
    | some value => value
    | none =>
      match _h : find cookie 59 start with
      | none => []
      | some stop => scan cookie name (stop + 1)
  else []
termination_by cookie.length - begin
decreasing_by
  have hstart := le_skip cookie begin
  have hstop := find_some _h
  omega

def sessionTokenFromRequest (request : HttpRequest) (config : AuthHttpConfig) : Bytes :=
  scan (request.getHeader (ascii "Cookie")) config.cookieName 0

theorem drop_skip (cookie : Bytes) (begin : ℕ) :
    cookie.drop (skip cookie begin) =
      (cookie.drop begin).dropWhile fun c => c == 59 || isSpace c := by
  induction begin using skip.induct cookie with
  | case1 begin h hskipped ih =>
    rw [skip, dif_pos h, if_pos hskipped, ih, List.drop_eq_getElem_cons h,
      List.dropWhile_cons, if_pos hskipped]
  | case2 begin h hkept =>
    rw [skip, dif_pos h, if_neg hkept, List.drop_eq_getElem_cons h,
      List.dropWhile_cons, if_neg hkept]
  | case3 begin h => rw [skip, dif_neg h, List.drop_eq_nil_of_le (by omega), List.dropWhile_nil]

theorem valueOf_eq {item : Bytes} (h : item.dropWhile isSpace = item) (name : Bytes) :
    valueOf item name = ((Cookies.pair item).filter (·.1 == name)).map Prod.snd := by
  unfold valueOf
  split
  · next hfind =>
    have hno := not_mem_of_find_none hfind
    rw [List.drop_zero] at hno
    rw [Cookies.pair_of_not_mem hno]
    rfl
  · next equals hfind =>
    obtain ⟨_, _, hname, hdrop⟩ := find_some hfind
    rw [List.drop_zero] at hdrop
    rw [Cookies.pair_cut _ hname (h.trans hdrop), slice]
    by_cases heq : slice item 0 (some equals) = name <;> simp [heq]

theorem dropWhile_item {cookie item rest : Bytes} {begin : ℕ}
    (h : cookie.drop (skip cookie begin) = item ++ rest) : item.dropWhile isSpace = item := by
  cases item with
  | nil => rw [List.dropWhile_nil]
  | cons c item =>
    have hhead := List.head?_dropWhile_not (fun c => c == 59 || isSpace c) (cookie.drop begin)
    rw [← drop_skip, h, List.cons_append, List.head?_cons] at hhead
    simp only [Bool.or_eq_false_iff] at hhead
    rw [List.dropWhile_cons_of_neg (by simp [hhead.2])]

theorem lookup_turn (cookie name : Bytes) (begin : ℕ) :
    Cookies.lookup name (cookie.drop begin) =
      (valueOf (slice cookie (skip cookie begin) (find cookie 59 (skip cookie begin))) name).or
        (match find cookie 59 (skip cookie begin) with
        | none => none
        | some stop => Cookies.lookup name (cookie.drop (stop + 1))) := by
  have hskip : Cookies.lookup name (cookie.drop begin) =
      Cookies.lookup name (cookie.drop (skip cookie begin)) := by
    rw [Cookies.lookup, Cookies.lookup, drop_skip, Cookies.pairs_skip]
  rw [hskip]
  cases hfind : find cookie 59 (skip cookie begin) with
  | none =>
    have hitem : (cookie.drop (skip cookie begin)).dropWhile isSpace =
        cookie.drop (skip cookie begin) := dropWhile_item (List.append_nil _).symm
    rw [Cookies.lookup_of_not_mem (not_mem_of_find_none hfind), ← valueOf_eq hitem, slice,
      Option.or_none]
  | some stop =>
    obtain ⟨_, _, hslice, hdrop⟩ := find_some hfind
    rw [hdrop, Cookies.lookup_append hslice, Cookies.lookup_of_not_mem hslice,
      ← valueOf_eq (dropWhile_item hdrop)]

theorem scan_turn {cookie : Bytes} {begin : ℕ} (hlt : begin < cookie.length) (name : Bytes) :
    scan cookie name begin =
      ((valueOf (slice cookie (skip cookie begin) (find cookie 59 (skip cookie begin))) name).or
        ((find cookie 59 (skip cookie begin)).map fun stop => scan cookie name (stop + 1))).getD
          [] := by
  rw [scan, if_pos hlt]
  dsimp only
  split
  · next value hvalue => rw [hvalue, Option.some_or, Option.getD_some]
  · next hvalue =>
    rw [hvalue, Option.none_or]
    split
    · next hstop => rw [hstop, Option.map_none, Option.getD_none]
    · next stop hstop => rw [hstop, Option.map_some, Option.getD_some]

/-- From any position on, the loop finds the first cookie with the name. -/
theorem scan_eq (cookie name : Bytes) (begin : ℕ) :
    scan cookie name begin = (Cookies.lookup name (cookie.drop begin)).getD [] := by
  induction begin using scan.induct cookie name with
  | case1 begin hlt start value hvalue =>
    rw [scan_turn hlt, lookup_turn, hvalue, Option.some_or, Option.some_or]
  | case2 begin hlt start hvalue hstop =>
    rw [scan_turn hlt, lookup_turn, hvalue, hstop, Option.map_none]
  | case3 begin hlt start hvalue stop hstop ih =>
    rw [scan_turn hlt, lookup_turn, hvalue, hstop, Option.map_some, Option.none_or, Option.none_or,
      Option.getD_some, ih]
  | case4 begin hge =>
    rw [scan, if_neg hge, List.drop_eq_nil_of_le (by omega), Cookies.lookup_nil, Option.getD_none]

theorem sessionTokenFromRequest_eq (request : HttpRequest) (config : AuthHttpConfig) :
    sessionTokenFromRequest request config =
      (Cookies.lookup config.cookieName (request.getHeader (ascii "Cookie"))).getD [] := by
  rw [sessionTokenFromRequest, scan_eq, List.drop_zero]

/-- Both ways to write sessionTokenFromRequest agree. -/
theorem sessionTokenFromRequest_eq_authHttp (request : HttpRequest) (config : AuthHttpConfig) :
    sessionTokenFromRequest request config = AuthHttp.sessionTokenFromRequest request config := by
  rw [sessionTokenFromRequest_eq, Cookies.lookup, Cookies.pairs, Cookies.firstNamed_parts,
    AuthHttp.sessionTokenFromRequest]
  congr 2
  funext part
  rw [Cookies.pair]
  dsimp only
  cases hdrop : (part.dropWhile isSpace).drop
      ((part.dropWhile isSpace).takeWhile (· != 61)).length with
  | nil => rfl
  | cons c value =>
    by_cases hname : (part.dropWhile isSpace).takeWhile (· != 61) = config.cookieName <;>
      simp [Option.filter, hname]

section Token

variable {A L : Type} {api : ShortLinkHttpApi A L}

theorem isAlnum_toHex (bytes : Bytes) {c : UInt8} (h : c ∈ toHex bytes) : isAlnum c := by
  obtain ⟨byte, _, hc⟩ := List.mem_flatMap.mp h
  simp only [List.mem_cons, List.not_mem_nil, or_false] at hc
  rcases hc with hc | hc
  · rw [hc, RequestIds.isAlnum_hexDigit]
  · rw [hc, RequestIds.isAlnum_hexDigit]

theorem token_of_createSession {user : User} {s s' : ServerState A L}
    {session : AuthenticatedSession}
    (h : (createSession api user).run s = (.ok (some session), s')) :
    ∃ bytes, session.token = toHex bytes := by
  simp only [createSession, generateToken, randBytes, Action.run_bind] at h
  cases hrandom : s.random 0 with
  | none =>
    rw [hrandom] at h
    simp [Action.run_pure] at h
  | some byte =>
    rw [hrandom] at h
    simp only [Option.map_some, Action.run_pure, nowEpochSeconds, nowEpochMilliseconds,
      Action.run_bind] at h
    split at h
    · simp [Action.run_pure] at h
    · rw [Action.run_bind] at h
      split at h
      · simp only [Action.run_pure, Prod.mk.injEq, Except.ok.injEq, Option.some.injEq] at h
        exact ⟨_, congrArg AuthenticatedSession.token h.1.symm⟩
      · cases h

theorem setSessionCookie_run (api : ShortLinkHttpApi A L) (session : AuthenticatedSession)
    (s : ServerState A L) : ∃ attributes,
      ((setSessionCookie api session).run s).2.response.headers.find? (ascii "Set-Cookie") =
        some (api.config.auth.cookieName ++ 61 :: session.token ++ 59 :: attributes) := by
  have hequals : ascii "=" = [61] := by decide
  have hattributes : ascii "; Path=/; HttpOnly; SameSite=Lax; Max-Age=" =
      59 :: ascii " Path=/; HttpOnly; SameSite=Lax; Max-Age=" := by decide
  have hne : ascii "Set-Cookie" ≠ ascii "Cache-Control" := by decide
  refine ⟨ascii " Path=/; HttpOnly; SameSite=Lax; Max-Age=" ++
    signedToDecimal (session.expiresAt - (s.clock 0).tdiv 1000) ++
    secureSuffix api.config.auth, ?_⟩
  simp only [setSessionCookie, nowEpochSeconds, nowEpochMilliseconds, addHeader, respond,
    Action.modify, Action.run_bind, Action.run_pure, HttpResponses.HttpResponse.addHeader,
    OrderedMaps.OrderedMap.find?_insert, if_neg hne]
  simp [hequals, hattributes]

/-- The API takes the first cookie with its name, and gets back the token that was set whatever
the other cookies are. -/
theorem sessionTokenFromRequest_exact (api : ShortLinkHttpApi A L) :
    (∀ request, sessionTokenFromRequest request api.config.auth =
      (Cookies.lookup api.config.auth.cookieName
        (request.getHeader (ascii "Cookie"))).getD []) ∧
    (∀ request, sessionTokenFromRequest request api.config.auth ≠ [] →
      (api.config.auth.cookieName, sessionTokenFromRequest request api.config.auth) ∈
        Cookies.pairs (request.getHeader (ascii "Cookie"))) ∧
    ((∀ c ∈ api.config.auth.cookieName, c ≠ 59 ∧ c ≠ 61 ∧ isSpace c = false) →
      ∀ user session (s s' s₁ : ServerState A L),
      (createSession api user).run s = (.ok (some session), s') →
        (∃ attributes, ((setSessionCookie api session).run s₁).2.response.headers.find?
          (ascii "Set-Cookie") =
            some (api.config.auth.cookieName ++ 61 :: session.token ++ 59 :: attributes)) ∧
        59 ∉ api.config.auth.cookieName ++ 61 :: session.token ∧
        ∀ request before part after,
          (request.getHeader (ascii "Cookie")).splitOn 59 = before ++ part :: after →
          part.dropWhile isSpace = api.config.auth.cookieName ++ 61 :: session.token →
          (∀ other ∈ before, ∀ c, Cookies.pair other = some c →
            c.1 ≠ api.config.auth.cookieName) →
          sessionTokenFromRequest request api.config.auth = session.token) := by
  refine ⟨fun request => sessionTokenFromRequest_eq request _, ?_, ?_⟩
  · intro request hne
    rw [sessionTokenFromRequest_eq] at hne ⊢
    cases hlookup : Cookies.lookup api.config.auth.cookieName
        (request.getHeader (ascii "Cookie")) with
    | none =>
      rw [hlookup] at hne
      exact absurd rfl hne
    | some value => exact Cookies.mem_pairs_of_lookup hlookup
  intro hname user session s s' s₁ hcreate
  obtain ⟨bytes, htoken⟩ := token_of_createSession hcreate
  refine ⟨setSessionCookie_run api session s₁, ?_, ?_⟩
  · intro hmem
    rcases List.mem_append.mp hmem with hmem | hmem
    · exact (hname 59 hmem).1 rfl
    · rcases List.mem_cons.mp hmem with heq | hmem
      · cases heq
      · rw [htoken] at hmem
        exact absurd (isAlnum_toHex bytes hmem) (by decide)
  · intro request before part after hsplit hitem hbefore
    have hequals : 61 ∉ api.config.auth.cookieName := fun hmem => (hname 61 hmem).2.1 rfl
    have hpairs : Cookies.pairs (request.getHeader (ascii "Cookie")) =
        before.filterMap Cookies.pair ++
          (api.config.auth.cookieName, session.token) :: after.filterMap Cookies.pair := by
      rw [Cookies.pairs, hsplit, List.filterMap_append,
        List.filterMap_cons_some (Cookies.pair_cut _ hequals hitem)]
    rw [sessionTokenFromRequest_eq, Cookies.lookup_of_pairs hpairs, Option.getD_some]
    intro c hc
    obtain ⟨other, hother, hpair⟩ := List.mem_filterMap.mp hc
    exact hbefore other hother c hpair

end Token

section Demo

open AuthRepositories (MemoryAuthRepository)
open MemoryShortLinks (MemoryShortLinkRepository)
open Sessions (demoApi demoStart demoUser demoToken)

/-- Other cookies have names that begin or end like the one of the session. -/
def demoRequest (token : Bytes) : HttpRequest where
  headers := .insert .empty (ascii "Cookie")
    (ascii ";; hao_session_old=a; my_hao_session=b;flag; hao_session=" ++ token ++ ascii "; c=d")

def demoState : ServerState MemoryAuthRepository MemoryShortLinkRepository :=
  { demoStart with clock := fun _ => 100000, random := fun _ => some fun _ => 1 }

theorem sessionTokenFromRequest_demo :
    sessionTokenFromRequest (demoRequest (demoToken 1)) demoApi.config.auth = demoToken 1 := by
  have hcreate : (createSession demoApi demoUser).run demoState =
      (.ok (some ⟨demoUser, demoToken 1, 160⟩),
        ((createSession demoApi demoUser).run demoState).2) := by rfl
  obtain ⟨_, _, hreturned⟩ :=
    (sessionTokenFromRequest_exact demoApi).2.2 (List.forall_iff_forall_mem.mp (by decide))
      _ _ _ _ demoState hcreate
  refine hreturned _ [[], [], ascii " hao_session_old=a", ascii " my_hao_session=b", ascii "flag"]
    (ascii " hao_session=" ++ demoToken 1) [ascii " c=d"] ?_ ?_ ?_
  all_goals decide

end Demo

end SessionCookies
