import Ockam.Lib.AssocMap

/-! Enrollment tokens (`ockam_api::authenticator::enrollment_tokens`): the issuer stores a token
under a one-time code, the acceptor takes one of its uses and then writes the token's attributes.
Along a run each `OK` to a code takes one use, counted as `max ttl_count 1`, within the token's
time to live (`okTimes_within`). -/

namespace Ockam.Authenticator

/-- `MAX_TOKEN_DURATION`: ten minutes. -/
def maxTokenDuration : ℕ := 600 * 10 ^ 9

def trustContextId : String := "trust_context_id"

structure Token (I : Type) where
  attrs : List (String × String)
  issuedBy : I
  createdAt : ℕ
  ttl : ℕ
  ttlCount : ℕ
  deriving DecidableEq, Repr

/-- `AttributesEntry::new(attrs, now, None, Some(issued_by))`. -/
structure AttributesEntry (I : Type) where
  attrs : List (String × String)
  added : ℕ
  expires : Option ℕ
  attestedBy : Option I
  deriving DecidableEq, Repr

inductive Response where
  | ok
  | forbidden (msg : String)
  | internalError (msg : String)
  deriving DecidableEq, Repr

variable {C I : Type} [DecidableEq C]

/-- The tokens table, and the attributes the acceptor has written. -/
structure State (C I : Type) where
  tokens : AssocMap C (Token I)
  attributes : AssocMap I (AttributesEntry I)

/-- `issue_token`, with the code `OneTimeCode::new()` draws. -/
def issueToken (s : State C I) (code : C) (enroller : I) (attrs : List (String × String))
    (tokenDuration ttlCount : Option ℕ) (now : ℕ) : State C I :=
  let tkn : Token I := ⟨attrs, enroller, now, tokenDuration.getD maxTokenDuration, ttlCount.getD 1⟩
  { s with tokens := s.tokens.insert code tkn }

/-- The requests the two workers serve, with the clock reading at which each is handled. -/
inductive Call (C I : Type) where
  | issueToken (code : C) (enroller : I) (attrs : List (String × String))
      (tokenDuration ttlCount : Option ℕ) (now : ℕ)
  | acceptToken (code : C) (fromId : I) (now : ℕ) (stored : Bool)

namespace Call

/-- The clock reading of an accept of `code`. -/
def acceptsAt (code : C) : Call C I → Option ℕ
  | acceptToken code' _ now _ => if code' = code then some now else none
  | issueToken .. => none

def issues (code : C) : Call C I → Bool
  | issueToken code' .. => code' = code
  | acceptToken .. => false

end Call

/-- The clock reading of an accept of `code` answered `OK`. -/
def okAt (code : C) (call : Call C I) (r : Response) : List ℕ :=
  match call.acceptsAt code, r with
  | some now, .ok => [now]
  | _, _ => []

section Calls

variable {code : C}

@[simp] lemma okAt_issueToken {code' : C} {enroller : I} {attrs : List (String × String)}
    {tokenDuration ttlCount : Option ℕ} {now : ℕ} {r : Response} :
    okAt code (.issueToken code' enroller attrs tokenDuration ttlCount now) r = [] := rfl

lemma okAt_acceptToken_self {fromId : I} {now : ℕ} {stored : Bool} {r : Response} :
    okAt code (.acceptToken code fromId now stored) r = if r = .ok then [now] else [] := by
  cases r <;> simp [okAt, Call.acceptsAt]

lemma okAt_acceptToken_of_ne {code' : C} (hc : code' ≠ code) {fromId : I} {now : ℕ} {stored : Bool}
    {r : Response} : okAt code (.acceptToken code' fromId now stored) r = [] := by
  simp [okAt, Call.acceptsAt, hc]

lemma issueToken_find? {s : State C I} {enroller : I} {attrs : List (String × String)}
    {tokenDuration ttlCount : Option ℕ} {now : ℕ} :
    (issueToken s code enroller attrs tokenDuration ttlCount now).tokens.find? code =
      some ⟨attrs, enroller, now, tokenDuration.getD maxTokenDuration, ttlCount.getD 1⟩ := by
  simp [issueToken, AssocMap.find?_insert]

lemma issueToken_find?_of_ne {s : State C I} {code' : C} (hc : code ≠ code') {enroller : I}
    {attrs : List (String × String)} {tokenDuration ttlCount : Option ℕ} {now : ℕ} :
    (issueToken s code' enroller attrs tokenDuration ttlCount now).tokens.find? code =
      s.tokens.find? code := by
  simp [issueToken, AssocMap.find?_insert, hc]

lemma ne_of_issues {code' : C} {enroller : I} {attrs : List (String × String)}
    {tokenDuration ttlCount : Option ℕ} {now : ℕ}
    (hi : (Call.issueToken code' enroller attrs tokenDuration ttlCount now).issues code = false) :
    code ≠ code' := by
  simpa [Call.issues, eq_comm] using hi

end Calls

variable [DecidableEq I]

/-- `accept_token`: `stored` is whether `put_attributes` succeeds. -/
def acceptToken (trustContext : String) (s : State C I) (code : C) (fromId : I) (now : ℕ)
    (stored : Bool) : State C I × Response :=
  match s.tokens.find? code with
  | none => (s, .forbidden "unknown token")
  | some token =>
    let tokens := s.tokens.erase code
    if now - token.createdAt > token.ttl then ({ s with tokens }, .forbidden "expired token")
    else
      let tokens :=
        if token.ttlCount > 1 then tokens.insert code { token with ttlCount := token.ttlCount - 1 }
        else tokens
      let entry : AttributesEntry I :=
        ⟨token.attrs ++ [(trustContextId, trustContext)], now, none, some token.issuedBy⟩
      if stored then (⟨tokens, s.attributes.insert fromId entry⟩, .ok)
      else ({ s with tokens }, .internalError "attributes storage error")

namespace Call

def apply (trustContext : String) (s : State C I) : Call C I → State C I × Response
  | issueToken code enroller attrs tokenDuration ttlCount now =>
    (Ockam.Authenticator.issueToken s code enroller attrs tokenDuration ttlCount now, .ok)
  | acceptToken code fromId now stored =>
    Ockam.Authenticator.acceptToken trustContext s code fromId now stored

end Call

/-- The clock readings at which an accept of `code` is answered `OK`, along a run. -/
def okTimes (trustContext : String) (code : C) : State C I → List (Call C I) → List ℕ
  | _, [] => []
  | s, call :: calls =>
    let (s', r) := call.apply trustContext s
    okAt code call r ++ okTimes trustContext code s' calls

/-- The uses left to a code: a token with one use or none is accepted once more. -/
def remaining (s : State C I) (code : C) : ℕ :=
  match s.tokens.find? code with
  | none => 0
  | some token => max token.ttlCount 1

/-- The token under `code`, if any, was made at `t₀` to live for `d`. -/
def Born (t₀ d : ℕ) (s : State C I) (code : C) : Prop :=
  ∀ token, s.tokens.find? code = some token → token.createdAt = t₀ ∧ token.ttl = d

section Accept

variable {trustContext : String} {s : State C I} {code : C} {fromId : I} {now : ℕ}
  {stored : Bool} {token : Token I}

lemma acceptToken_unknown (h : s.tokens.find? code = none) :
    acceptToken trustContext s code fromId now stored = (s, .forbidden "unknown token") := by
  simp [acceptToken, h]

lemma acceptToken_expired (h : s.tokens.find? code = some token)
    (hexp : token.ttl < now - token.createdAt) :
    acceptToken trustContext s code fromId now stored =
      ({ s with tokens := s.tokens.erase code }, .forbidden "expired token") := by
  simp [acceptToken, h, hexp]

lemma acceptToken_live_response (h : s.tokens.find? code = some token)
    (hlive : now - token.createdAt ≤ token.ttl) :
    (acceptToken trustContext s code fromId now stored).2 =
      if stored then .ok else .internalError "attributes storage error" := by
  have hnot : ¬token.ttl < now - token.createdAt := Nat.not_lt.mpr hlive
  cases stored <;> simp [acceptToken, h, hnot]

lemma acceptToken_live_find? (h : s.tokens.find? code = some token)
    (hlive : now - token.createdAt ≤ token.ttl) :
    (acceptToken trustContext s code fromId now stored).1.tokens.find? code =
      if token.ttlCount > 1 then some { token with ttlCount := token.ttlCount - 1 } else none := by
  have hnot : ¬token.ttl < now - token.createdAt := Nat.not_lt.mpr hlive
  have htokens : (acceptToken trustContext s code fromId now stored).1.tokens =
      if token.ttlCount > 1 then
        (s.tokens.erase code).insert code { token with ttlCount := token.ttlCount - 1 }
      else s.tokens.erase code := by
    cases stored <;> simp [acceptToken, h, hnot]
  rw [htokens]
  split_ifs <;> simp [AssocMap.find?_insert, AssocMap.find?_erase]

lemma acceptToken_find?_of_ne {code' : C} (hc : code' ≠ code) :
    (acceptToken trustContext s code fromId now stored).1.tokens.find? code' = s.tokens.find? code' := by
  unfold acceptToken
  split
  · rfl
  · split_ifs <;> simp [AssocMap.find?_insert, AssocMap.find?_erase, hc]

lemma acceptToken_cases (trustContext : String) (s : State C I) (code : C) (fromId : I) (now : ℕ)
    (stored : Bool) :
    (s.tokens.find? code = none ∧
        acceptToken trustContext s code fromId now stored = (s, .forbidden "unknown token")) ∨
      (∃ token, s.tokens.find? code = some token ∧ token.ttl < now - token.createdAt ∧
        (acceptToken trustContext s code fromId now stored).1.tokens.find? code = none ∧
        (acceptToken trustContext s code fromId now stored).2 = .forbidden "expired token") ∨
      (∃ token, s.tokens.find? code = some token ∧ now - token.createdAt ≤ token.ttl ∧
        (acceptToken trustContext s code fromId now stored).1.tokens.find? code =
          (if token.ttlCount > 1 then some { token with ttlCount := token.ttlCount - 1 } else none) ∧
        (acceptToken trustContext s code fromId now stored).2 =
          if stored then .ok else .internalError "attributes storage error") := by
  rcases hfind : s.tokens.find? code with _ | token
  · exact .inl ⟨rfl, acceptToken_unknown hfind⟩
  · by_cases hlive : now - token.createdAt ≤ token.ttl
    · exact .inr (.inr ⟨token, rfl, hlive, acceptToken_live_find? hfind hlive,
        acceptToken_live_response hfind hlive⟩)
    · have hexp : token.ttl < now - token.createdAt := Nat.lt_of_not_le hlive
      rw [acceptToken_expired hfind hexp]
      exact .inr (.inl ⟨token, rfl, hexp, by simp [AssocMap.find?_erase], rfl⟩)

end Accept

section Run

variable {trustContext : String} {code : C} {t₀ d : ℕ}

lemma okTimes_cons (s : State C I) (call : Call C I) (calls : List (Call C I)) :
    okTimes trustContext code s (call :: calls) =
      okAt code call (call.apply trustContext s).2 ++
        okTimes trustContext code (call.apply trustContext s).1 calls := rfl

lemma apply_remaining (trustContext : String) (s : State C I) {call : Call C I}
    (hi : call.issues code = false) :
    remaining (call.apply trustContext s).1 code + (okAt code call (call.apply trustContext s).2).length ≤
      remaining s code := by
  cases call with
  | issueToken code' enroller attrs tokenDuration ttlCount now =>
    simp [Call.apply, remaining, issueToken_find?_of_ne (ne_of_issues hi)]
  | acceptToken code' fromId now stored =>
    by_cases hc : code' = code
    · subst hc
      simp only [Call.apply, okAt_acceptToken_self, remaining]
      rcases acceptToken_cases trustContext s code' fromId now stored with
        ⟨hf, hr⟩ | ⟨token, hf, -, hf', hr⟩ | ⟨token, hf, -, hf', hr⟩
      · simp [hr, hf]
      · simp [hr, hf, hf']
      · -- a live token: one use less, or none left, against at most one `OK`
        rw [hf, hf', hr]
        split_ifs <;> simp <;> omega
    · simp [Call.apply, okAt_acceptToken_of_ne hc, remaining, acceptToken_find?_of_ne (Ne.symm hc)]

lemma apply_born (trustContext : String) {s : State C I} {call : Call C I}
    (hi : call.issues code = false) (hb : Born t₀ d s code) :
    Born t₀ d (call.apply trustContext s).1 code ∧
      ∀ now ∈ okAt code call (call.apply trustContext s).2, now - t₀ ≤ d := by
  cases call with
  | issueToken code' enroller attrs tokenDuration ttlCount now =>
    refine ⟨fun token h => hb token ?_, by simp⟩
    rwa [Call.apply, issueToken_find?_of_ne (ne_of_issues hi)] at h
  | acceptToken code' fromId now stored =>
    by_cases hc : code' = code
    · subst hc
      simp only [Call.apply, okAt_acceptToken_self]
      rcases acceptToken_cases trustContext s code' fromId now stored with
        ⟨hf, hr⟩ | ⟨token, hf, -, hf', hr⟩ | ⟨token, hf, hlive, hf', hr⟩
      · rw [hr]
        exact ⟨hb, by simp⟩
      · rw [hr]
        refine ⟨fun token h => ?_, by simp⟩
        rw [hf'] at h
        cases h
      · -- the copy put back keeps the token's birth, which the `OK` is within
        obtain ⟨hc₀, hd⟩ := hb token hf
        refine ⟨fun token' h => ?_, fun now' hnow => ?_⟩
        · rw [hf'] at h
          split_ifs at h
          cases h
          exact ⟨hc₀, hd⟩
        · split_ifs at hnow
          · rw [List.mem_singleton.mp hnow, ← hc₀, ← hd]
            exact hlive
          · simp at hnow
    · refine ⟨fun token h => hb token ?_, by simp [okAt_acceptToken_of_ne hc]⟩
      rwa [Call.apply, acceptToken_find?_of_ne (Ne.symm hc)] at h

theorem okTimes_within : ∀ {s : State C I} {calls : List (Call C I)},
    (∀ call ∈ calls, call.issues code = false) → Born t₀ d s code →
      (okTimes trustContext code s calls).length ≤ remaining s code ∧
        ∀ now ∈ okTimes trustContext code s calls, now - t₀ ≤ d
  | s, [], _, _ => by simp [okTimes]
  | s, call :: calls, hi, hb => by
    have hfirst := hi call (.head _)
    have hstep := apply_remaining trustContext s hfirst
    obtain ⟨hb', hnow⟩ := apply_born trustContext hfirst hb
    obtain ⟨hlen, htimes⟩ := okTimes_within (fun c hc => hi c (.tail _ hc)) hb'
    rw [okTimes_cons]
    refine ⟨?_, fun now h => ?_⟩
    · rw [List.length_append]
      omega
    · rcases List.mem_append.mp h with h | h
      · exact hnow now h
      · exact htimes now h

end Run

section Issue

variable {trustContext : String} {s : State C I} {code : C} {enroller : I}
  {attrs : List (String × String)} {tokenDuration ttlCount : Option ℕ} {t₀ : ℕ}

theorem issueToken_uses (calls : List (Call C I)) (hi : ∀ call ∈ calls, call.issues code = false) :
    (okTimes trustContext code (issueToken s code enroller attrs tokenDuration ttlCount t₀) calls).length ≤
        max (ttlCount.getD 1) 1 ∧
      ∀ now ∈ okTimes trustContext code (issueToken s code enroller attrs tokenDuration ttlCount t₀) calls,
        now - t₀ ≤ tokenDuration.getD maxTokenDuration := by
  have hborn : Born t₀ (tokenDuration.getD maxTokenDuration)
      (issueToken s code enroller attrs tokenDuration ttlCount t₀) code := by
    intro token h
    rw [issueToken_find?] at h
    cases h
    exact ⟨rfl, rfl⟩
  have hrem : remaining (issueToken s code enroller attrs tokenDuration ttlCount t₀) code =
      max (ttlCount.getD 1) 1 := by
    simp [remaining, issueToken_find?]
  rw [← hrem]
  exact okTimes_within hi hborn

end Issue

/-- A token issued with no use at all is accepted once within its time to live; and an accept of a
live token whose attribute write fails is refused with the use already spent. -/
theorem accept_token_overuse_not_atomic (trustContext : String) (s : State C I) (code : C)
    (enroller fromId : I) (attrs : List (String × String)) (tokenDuration : Option ℕ) {t₀ t₁ : ℕ}
    (ht : t₁ - t₀ ≤ tokenDuration.getD maxTokenDuration) {token : Token I} {now : ℕ}
    (htoken : s.tokens.find? code = some token) (hlive : now - token.createdAt ≤ token.ttl) :
    okTimes trustContext code s
        [.issueToken code enroller attrs tokenDuration (some 0) t₀, .acceptToken code fromId t₁ true] =
        [t₁] ∧
      (acceptToken trustContext s code fromId now false).2 =
        .internalError "attributes storage error" ∧
      remaining (acceptToken trustContext s code fromId now false).1 code + 1 = remaining s code := by
  refine ⟨?_, acceptToken_live_response htoken hlive, ?_⟩
  · -- the fresh token has `ttl_count = 0` and is accepted, being live
    have hfind : (issueToken s code enroller attrs tokenDuration (some 0) t₀).tokens.find? code =
        some ⟨attrs, enroller, t₀, tokenDuration.getD maxTokenDuration, 0⟩ := issueToken_find?
    rw [okTimes_cons, okTimes_cons]
    simp only [Call.apply, okAt_issueToken, List.nil_append, okAt_acceptToken_self,
      acceptToken_live_response hfind ht, if_true, okTimes, List.append_nil]
  · -- the token goes back with one use less, or not at all
    simp only [remaining, acceptToken_live_find? htoken hlive, htoken]
    split_ifs <;> simp <;> omega

/-- Code `7` holds a token for three uses; issued again with no use, it is still accepted once. -/
theorem accept_token_overuse_not_atomic_seven :
    let token : Token ℕ := ⟨[], 0, 0, maxTokenDuration, 3⟩
    let s : State ℕ ℕ := ⟨AssocMap.empty.insert 7 token, AssocMap.empty⟩
    okTimes "project" 7 s [.issueToken 7 0 [] none (some 0) 0, .acceptToken 7 1 0 true] = [0] ∧
      (acceptToken "project" s 7 1 0 false).2 = .internalError "attributes storage error" ∧
      remaining (acceptToken "project" s 7 1 0 false).1 7 + 1 = remaining s 7 :=
  accept_token_overuse_not_atomic "project" _ 7 0 1 [] none (by decide) rfl (by decide)

end Ockam.Authenticator
