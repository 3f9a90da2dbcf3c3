import Mathlib.Data.List.Infix

/-! Parsing expression grammars: an expression reads a prefix of its input and gives its value and
the rest, or fails, and never backtracks into what it has read. A repetition stops at an expression
that succeeds without reading; for expressions that always read something this is the PEG `p*`. -/

/-- A parsing expression over symbols `σ` with values in `α`. -/
def Peg (σ α : Type) : Type := List σ → Option (α × List σ)

namespace Peg

variable {σ α β : Type}

instance : Monad (Peg σ) where
  pure a s := some (a, s)
  bind p f s :=
    match p s with
    | some (a, s') => f a s'
    | none => none

/-- Ordered choice `p / q`. -/
def orElse (p : Peg σ α) (q : Unit → Peg σ α) : Peg σ α := fun s =>
  match p s with
  | some r => some r
  | none => q () s

instance : OrElse (Peg σ α) := ⟨orElse⟩

def fail : Peg σ α := fun _ => none

/-- `.`: any one symbol. -/
def any : Peg σ σ
  | [] => none
  | c :: s => some (c, s)

/-- One symbol of a class, as `[a-z]`. -/
def satisfy (p : σ → Bool) : Peg σ σ
  | [] => none
  | c :: s => if p c then some (c, s) else none

/-- A literal. -/
def lit [DecidableEq σ] (w : List σ) : Peg σ (List σ) := fun s =>
  if w <+: s then some (w, s.drop w.length) else none

/-- `p?`. -/
def opt (p : Peg σ α) : Peg σ (Option α) := fun s =>
  match p s with
  | some (a, s') => some (some a, s')
  | none => some (none, s)

/-- `!p`: reads nothing, and succeeds where `p` fails. -/
def notAhead (p : Peg σ α) : Peg σ Unit := fun s =>
  match p s with
  | some _ => none
  | none => some ((), s)

/-- At most `fuel` rounds of `p*`. -/
def starFuel (p : Peg σ α) : ℕ → List σ → List α × List σ
  | 0, s => ([], s)
  | fuel + 1, s =>
    match p s with
    | some (a, s') =>
      if s'.length < s.length then
        let r := starFuel p fuel s'
        (a :: r.1, r.2)
      else ([], s)
    | none => ([], s)

/-- The values and the rest of `p*`: every round reads a symbol, so the length of the input bounds
the rounds. -/
def starList (p : Peg σ α) (s : List σ) : List α × List σ := starFuel p s.length s

/-- `p*`. -/
def star (p : Peg σ α) : Peg σ (List α) := fun s => some (starList p s)

/-- `p+`. -/
def plus (p : Peg σ α) : Peg σ (List α) := do
  let a ← p
  let as ← star p
  pure (a :: as)

section Laws

variable {p : Peg σ α} {f : α → Peg σ β} {s s' : List σ} {a : α}

@[simp] lemma pure_apply (a : α) (s : List σ) : (pure a : Peg σ α) s = some (a, s) := rfl

lemma bind_of_some (h : p s = some (a, s')) : (p >>= f) s = f a s' := by
  change (match p s with | some (a, s') => f a s' | none => none) = _
  rw [h]

lemma bind_of_none (h : p s = none) : (p >>= f) s = none := by
  change (match p s with | some (a, s') => f a s' | none => none) = _
  rw [h]

lemma orElse_of_some {q : Peg σ α} {r : α × List σ} (h : p s = some r) : (p <|> q) s = some r := by
  change (match p s with | some r => some r | none => q s) = _
  rw [h]

lemma orElse_of_none {q : Peg σ α} (h : p s = none) : (p <|> q) s = q s := by
  change (match p s with | some r => some r | none => q s) = _
  rw [h]

lemma bind_apply (p : Peg σ α) (f : α → Peg σ β) (s : List σ) :
    (p >>= f) s = (p s).bind fun r => f r.1 r.2 := by
  change (match p s with | some (a, s') => f a s' | none => none) = _
  cases p s <;> rfl

lemma orElse_apply (p q : Peg σ α) (s : List σ) : (p <|> q) s = (p s).or (q s) := by
  change (match p s with | some r => some r | none => q s) = _
  cases p s <;> rfl

@[simp] lemma fail_apply (s : List σ) : (fail : Peg σ α) s = none := rfl

@[simp] lemma any_cons (c : σ) (s : List σ) : any (c :: s) = some (c, s) := rfl

@[simp] lemma satisfy_nil (c : σ → Bool) : satisfy c [] = none := rfl

lemma satisfy_cons (c : σ → Bool) (x : σ) (s : List σ) :
    satisfy c (x :: s) = if c x then some (x, s) else none := rfl

@[simp] lemma lit_append [DecidableEq σ] (w s : List σ) : lit w (w ++ s) = some (w, s) := by
  simp [lit]

lemma lit_of_mismatch [DecidableEq σ] {w : List σ} (h : ¬ w <+: s) : lit w s = none := by
  simp [lit, h]

section StarFuel

attribute [local simp] starFuel

lemma starFuel_congr : ∀ {n m : ℕ} {s : List σ}, s.length ≤ n → s.length ≤ m →
    starFuel p n s = starFuel p m s
  | 0, 0, _, _, _ => rfl
  | 0, _ + 1, s, hn, _ | _ + 1, 0, s, _, hn => by
    have hs : s = [] := List.eq_nil_of_length_eq_zero (by omega)
    subst hs
    simp only [starFuel]
    split <;> simp
  | n + 1, m + 1, s, hn, hm => by
    simp only [starFuel]
    split
    · rename_i a s' _
      split_ifs with hs
      · rw [starFuel_congr (n := n) (m := m) (by omega) (by omega)]
      · rfl
    · rfl

lemma starList_of_none (h : p s = none) : starList p s = ([], s) := by
  unfold starList
  cases s with
  | nil => rfl
  | cons x s => simp [h]

lemma starList_of_some (h : p s = some (a, s')) (hs : s'.length < s.length) :
    starList p s = (a :: (starList p s').1, (starList p s').2) := by
  obtain ⟨k, hk⟩ : ∃ k, s.length = k + 1 := ⟨s.length - 1, by omega⟩
  unfold starList
  rw [hk]
  simp only [starFuel, h, hs, if_true]
  rw [starFuel_congr (by omega) le_rfl]

end StarFuel

@[simp] lemma star_apply (s : List σ) : star p s = some (starList p s) := rfl

lemma plus_of_some (h : p s = some (a, s')) :
    plus p s = some (a :: (starList p s').1, (starList p s').2) := by
  simp only [plus]
  rw [bind_of_some h, bind_of_some (star_apply s')]
  rfl

lemma plus_of_none (h : p s = none) : plus p s = none := by
  simp only [plus]
  rw [bind_of_none h]

lemma starList_satisfy_append {c : σ → Bool} {rest : List σ}
    (hrest : ∀ x ∈ rest.head?, c x = false) :
    ∀ {xs : List σ}, (∀ x ∈ xs, c x = true) → starList (satisfy c) (xs ++ rest) = (xs, rest)
  | [], _ => by
    apply starList_of_none
    cases rest with
    | nil => rfl
    | cons x rest => simp [satisfy_cons, hrest x rfl]
  | x :: xs, hxs => by
    have hx : satisfy c (x :: (xs ++ rest)) = some (x, xs ++ rest) := by
      simp [satisfy_cons, hxs x (by simp)]
    rw [List.cons_append, starList_of_some hx (by simp),
      starList_satisfy_append hrest (fun y hy => hxs y (by simp [hy]))]

/-- `p` reads a symbol whenever it succeeds. -/
def Progress (p : Peg σ α) : Prop := ∀ ⦃s a s'⦄, p s = some (a, s') → s'.length < s.length

lemma lit_progress [DecidableEq σ] {w : List σ} (hw : w ≠ []) : Progress (lit w) := by
  intro s a s' h
  simp only [lit] at h
  split_ifs at h with hp
  cases h
  have hlen : 0 < w.length := List.length_pos_iff.mpr hw
  have := hp.length_le
  simp only [List.length_drop]
  omega

lemma Progress.orElse {q : Peg σ α} (hp : Progress p) (hq : Progress q) : Progress (p <|> q) := by
  intro s a s' h
  rw [orElse_apply] at h
  cases hps : p s with
  | none => exact hq (by simpa [hps] using h)
  | some r => exact hp (by simpa [hps] using h)

lemma starList_rest (hp : Progress p) (s : List σ) : p (starList p s).2 = none := by
  suffices h : ∀ n (s : List σ), s.length ≤ n → p (starFuel p n s).2 = none from
    h _ s le_rfl
  intro n
  induction n with
  | zero =>
    intro s hs
    match hps : p s with
    | none => rfl
    | some (a, s') => exact absurd (hp hps) (by omega)
  | succ n ih =>
    intro s hs
    simp only [starFuel]
    split
    · rename_i a s' hps
      rw [if_pos (hp hps)]
      exact ih s' (by have := hp hps; omega)
    · assumption

lemma plus_satisfy_append {c : σ → Bool} {rest xs : List σ} (hrest : ∀ x ∈ rest.head?, c x = false)
    (hne : xs ≠ []) (hxs : ∀ x ∈ xs, c x = true) : plus (satisfy c) (xs ++ rest) = some (xs, rest) := by
  obtain ⟨x, xs, rfl⟩ := List.exists_cons_of_ne_nil hne
  have hx : satisfy c (x :: (xs ++ rest)) = some (x, xs ++ rest) := by
    simp [satisfy_cons, hxs x (by simp)]
  rw [List.cons_append, plus_of_some hx,
    starList_satisfy_append hrest (fun y hy => hxs y (by simp [hy]))]

lemma plus_satisfy_of_head {c : σ → Bool} {rest : List σ} (hrest : ∀ x ∈ rest.head?, c x = false) :
    plus (satisfy c) rest = none := by
  apply plus_of_none
  cases rest with
  | nil => rfl
  | cons x rest => simp [satisfy_cons, hrest x rfl]

lemma starList_starList (hp : Progress p) (s : List σ) :
    starList p (starList p s).2 = ([], (starList p s).2) :=
  starList_of_none (starList_rest hp s)

end Laws

end Peg
