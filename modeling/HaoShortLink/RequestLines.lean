import HaoShortLink.HttpContexts

/-! The request lines that processRequestLine accepts, said without it. -/
namespace RequestLines

open Cpp HttpRequests HttpContexts
open OrderedMaps (OrderedMap)

def methodName : Method → Bytes
  | .get => ascii "GET"
  | .post => ascii "POST"
  | .put => ascii "PUT"
  | .delete => ascii "DELETE"
  | .options => ascii "OPTIONS"
  | .head | .invalid => []

/-- METHOD SP target SP version -/
structure RequestLine where
  method : Method
  target : Bytes
  version : Bytes
  method_known : method ∈ [.get, .post, .put, .delete, .options]
  target_solid : (32 : UInt8) ∉ target
  version_known : version ∈ [ascii "HTTP/1.0", ascii "HTTP/1.1"]

def RequestLine.text (l : RequestLine) : Bytes :=
  methodName l.method ++ 32 :: (l.target ++ 32 :: l.version)

/-- A target with its path and the pieces between '&' that follow its first '?'. -/
inductive Target : Bytes → Bytes → List Bytes → Prop where
  | plain {path} : (63 : UInt8) ∉ path → Target path path []
  | query {path pieces} : (63 : UInt8) ∉ path → pieces ≠ [] →
      (∀ piece ∈ pieces, (38 : UInt8) ∉ piece) →
      Target (path ++ 63 :: [38].intercalate pieces) path pieces

/-- Of the pieces that read key '=' something, the last reads key '=' value. -/
def LastPair (pieces : List Bytes) (key value : Bytes) : Prop :=
  (61 : UInt8) ∉ key ∧ ∃ before after, pieces = before ++ (key ++ 61 :: value) :: after ∧
    ∀ piece ∈ after, ∀ other, piece ≠ key ++ 61 :: other

theorem cut_unique {separator : UInt8} {key key' value value' : Bytes} (hkey : separator ∉ key)
    (hkey' : separator ∉ key') (h : key ++ separator :: value = key' ++ separator :: value') :
    key = key' ∧ value = value' := by
  have hsame : key = key' := by
    rw [← takeWhile_until hkey value, h, takeWhile_until hkey']
  subst hsame
  exact ⟨rfl, (List.cons.inj (List.append_cancel_left h)).2⟩

theorem addQueryPair_pair {key : Bytes} (hkey : (61 : UInt8) ∉ key) (value : Bytes)
    (m : OrderedMap Bytes Bytes) :
    HttpRequest.addQueryPair m (key ++ 61 :: value) = m.insert key value := by
  simp only [HttpRequest.addQueryPair, takeWhile_until hkey, List.drop_left]

theorem addQueryPair_other {piece : Bytes} (h : (61 : UInt8) ∉ piece)
    (m : OrderedMap Bytes Bytes) : HttpRequest.addQueryPair m piece = m := by
  simp only [HttpRequest.addQueryPair, takeWhile_ne h, List.drop_length]

theorem lastPair_snoc {pieces : List Bytes} {piece key value : Bytes} :
    LastPair (pieces ++ [piece]) key value ↔ (61 : UInt8) ∉ key ∧
      (piece = key ++ 61 :: value ∨
        (∀ other, piece ≠ key ++ 61 :: other) ∧ LastPair pieces key value) := by
  unfold LastPair
  apply and_congr_right
  intro hkey
  constructor
  · rintro ⟨before, after, hpieces, hafter⟩
    rcases List.eq_nil_or_concat after with rfl | ⟨init, last, rfl⟩
    · left
      exact (List.append_inj' hpieces rfl).2 |> List.singleton_inj.mp
    · right
      have hsplit : pieces ++ [piece] =
          (before ++ (key ++ 61 :: value) :: init) ++ [last] := by
        rw [hpieces]
        simp
      obtain ⟨rfl, hlast⟩ := List.append_inj' hsplit rfl
      obtain rfl := List.singleton_inj.mp hlast
      constructor
      · intro other
        exact hafter piece (by simp) other
      · refine ⟨hkey, before, init, rfl, ?_⟩
        intro other hother
        exact hafter other (by simp [hother])
  · rintro (rfl | ⟨hpiece, -, before, after, rfl, hafter⟩)
    · exact ⟨pieces, [], rfl, by simp⟩
    · refine ⟨before, after ++ [piece], by simp, ?_⟩
      intro other hother
      rcases List.mem_append.mp hother with hold | hnew
      · exact hafter other hold
      · rw [List.mem_singleton.mp hnew]
        exact hpiece

/-- The query map holds for each key what its last piece gives it. -/
theorem find?_queryPairs (pieces : List Bytes) (key value : Bytes) :
    (pieces.foldl HttpRequest.addQueryPair .empty).find? key = some value ↔
      LastPair pieces key value := by
  induction pieces using List.reverseRecOn with
  | nil => simp [LastPair, OrderedMap.empty, OrderedMap.find?, OrderedMaps.findEntry]
  | append_singleton pieces piece ih =>
    rw [List.foldl_append, List.foldl_cons, List.foldl_nil, lastPair_snoc]
    rcases cut_cases 61 piece with hplain | ⟨k, v, hk, rfl⟩
    · have hother : ∀ k' v', (61 : UInt8) ∉ k' → piece ≠ k' ++ 61 :: v' := by
        rintro k' v' - rfl
        exact hplain (by simp)
      rw [addQueryPair_other hplain, ih]
      constructor
      · intro h
        exact ⟨h.1, .inr ⟨fun other => hother key other h.1, h⟩⟩
      · rintro ⟨hkey, hlast | ⟨-, h⟩⟩
        · exact absurd hlast (hother key value hkey)
        · exact h
    · rw [addQueryPair_pair hk, OrderedMap.find?_insert, ← ih]
      by_cases hkey : key = k
      · subst hkey
        simp [hk, eq_comm]
      · rw [if_neg hkey]
        have hdiffers : ∀ v', (61 : UInt8) ∉ key → k ++ 61 :: v ≠ key ++ 61 :: v' := by
          intro v' hkey' h
          exact hkey (cut_unique hk hkey' h).1.symm
        constructor
        · intro h
          have hlast := ih.mp h
          exact ⟨hlast.1, .inr ⟨fun v' => hdiffers v' hlast.1, h⟩⟩
        · rintro ⟨hkey', heq | ⟨-, h⟩⟩
          · exact absurd heq (hdiffers value hkey')
          · exact h

theorem splitOn_pieces (separator : UInt8) (argument : Bytes) :
    ∀ piece ∈ argument.splitOn separator, separator ∉ piece := by
  induction hn : argument.length using Nat.strongRecOn generalizing argument with
  | ind n ih =>
    intro piece hpiece
    rcases cut_cases separator argument with hplain | ⟨first, rest, hfirst, rfl⟩
    · rw [List.splitOn_eq_singleton hplain] at hpiece
      rwa [List.mem_singleton.mp hpiece]
    · rw [List.splitOn_append_cons_self_of_not_mem hfirst] at hpiece
      rcases List.mem_cons.mp hpiece with rfl | hrest
      · exact hfirst
      · refine ih rest.length ?_ rest rfl piece hrest
        simp only [List.length_append, List.length_cons] at hn
        omega

theorem target_exists (target : Bytes) : ∃ path pieces, Target target path pieces := by
  rcases cut_cases 63 target with hplain | ⟨path, argument, hpath, rfl⟩
  · exact ⟨target, [], .plain hplain⟩
  · refine ⟨path, argument.splitOn 38, ?_⟩
    have hquery := Target.query hpath (List.splitOn_ne_nil 38 argument)
    rw [List.intercalate_splitOn] at hquery
    exact hquery (splitOn_pieces 38 argument)

theorem setTarget_eq {target path : Bytes} {pieces : List Bytes} (h : Target target path pieces)
    (request : HttpRequest) : setTarget request target =
      { request with
        path := path
        queryParameters := pieces.foldl HttpRequest.addQueryPair request.queryParameters } := by
  cases h with
  | plain hpath => simp [setTarget, takeWhile_ne hpath]
  | query hpath hne hpieces =>
    simp only [setTarget, takeWhile_until hpath, List.drop_left, HttpRequest.setQueryParameters,
      List.splitOn_intercalate 38 hpieces hne]

theorem setVersion_eq_true_iff {request : HttpRequest} {version : Bytes} :
    (setVersion request version).1 = true ↔ version ∈ [ascii "HTTP/1.0", ascii "HTTP/1.1"] := by
  unfold setVersion
  split
  · next h => simp [h]
  · split
    · next h => simp [h]
    · next h₁ h₀ => simp [h₁, h₀]

theorem setVersion_known {version : Bytes} (h : version ∈ [ascii "HTTP/1.0", ascii "HTTP/1.1"])
    (request : HttpRequest) :
    setVersion request version = (true, { request with version := version }) := by
  simp only [List.mem_cons, List.not_mem_nil, or_false] at h
  rcases h with rfl | rfl
  · have hne : ascii "HTTP/1.0" ≠ ascii "HTTP/1.1" := by decide
    rw [setVersion, if_neg hne, if_pos rfl]
  · rw [setVersion, if_pos rfl]

theorem methodOf_ne_invalid_iff {m : Bytes} : methodOf m ≠ .invalid ↔
    ∃ method ∈ [Method.get, .post, .put, .delete, .options], methodName method = m := by
  constructor
  · intro h
    unfold methodOf at h
    split at h
    · next hm => exact ⟨.get, by simp, hm.symm⟩
    split at h
    · next hm => exact ⟨.post, by simp, hm.symm⟩
    split at h
    · next hm => exact ⟨.put, by simp, hm.symm⟩
    split at h
    · next hm => exact ⟨.delete, by simp, hm.symm⟩
    split at h
    · next hm => exact ⟨.options, by simp, hm.symm⟩
    · exact absurd rfl h
  · rintro ⟨method, hmethod, rfl⟩
    revert method
    decide

theorem methodOf_methodName {method : Method}
    (h : method ∈ [Method.get, .post, .put, .delete, .options]) :
    methodOf (methodName method) = method ∧ (32 : UInt8) ∉ methodName method := by
  revert method
  decide

theorem processRequestLine_text (l : RequestLine) {path : Bytes} {pieces : List Bytes}
    (h : Target l.target path pieces) (request : HttpRequest) :
    processRequestLine request l.text = (true, { request with
      method := l.method
      version := l.version
      path := path
      queryParameters := pieces.foldl HttpRequest.addQueryPair request.queryParameters }) := by
  obtain ⟨hmethod, hspace⟩ := methodOf_methodName l.method_known
  have hvalid : l.method ≠ .invalid := by
    rw [← hmethod, methodOf_ne_invalid_iff]
    exact ⟨l.method, l.method_known, rfl⟩
  simp only [processRequestLine, RequestLine.text, takeWhile_until hspace, List.drop_left,
    hmethod, if_neg hvalid, takeWhile_until l.target_solid, setTarget_eq h,
    setVersion_known l.version_known]

/-- Whatever was parsed before, only the request lines of the grammar are accepted. -/
theorem exists_text_of_accepted {request : HttpRequest} {line : Bytes}
    (h : (processRequestLine request line).1 = true) : ∃ l : RequestLine, line = l.text := by
  rcases cut_cases 32 line with hplain | ⟨m, rest, hm, rfl⟩
  · simp [processRequestLine, takeWhile_ne hplain] at h
  simp only [processRequestLine, takeWhile_until hm, List.drop_left] at h
  split at h
  · cases h
  · next hvalid =>
    obtain ⟨method, hmethod, rfl⟩ := methodOf_ne_invalid_iff.mp hvalid
    rcases cut_cases 32 rest with hplain | ⟨target, version, htarget, rfl⟩
    · simp [takeWhile_ne hplain] at h
    · simp only [takeWhile_until htarget, List.drop_left] at h
      exact ⟨⟨method, target, version, hmethod, htarget, setVersion_eq_true_iff.mp h⟩, rfl⟩

/-- A fresh request takes exactly the lines METHOD SP target SP version, and then has the method,
the version, the path and the query of the line and nothing else. -/
theorem processRequestLine_grammar (line : Bytes) :
    ((processRequestLine {} line).1 = true ↔ ∃ l : RequestLine, line = l.text) ∧
    ∀ l : RequestLine, ∃ path pieces query, Target l.target path pieces ∧
      (∀ key value, query.find? key = some value ↔ LastPair pieces key value) ∧
      processRequestLine {} l.text = (true,
        { method := l.method, version := l.version, path := path, queryParameters := query }) := by
  constructor
  · constructor
    · exact exists_text_of_accepted
    · rintro ⟨l, rfl⟩
      obtain ⟨path, pieces, htarget⟩ := target_exists l.target
      rw [processRequestLine_text l htarget]
  · intro l
    obtain ⟨path, pieces, htarget⟩ := target_exists l.target
    exact ⟨path, pieces, _, htarget, find?_queryPairs pieces,
      processRequestLine_text l htarget {}⟩

end RequestLines
