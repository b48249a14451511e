import DiceFormula.Expr.Evaluation
import DiceFormula.Proofs.Rolling

/-!
# Trees of the same shape

Evaluating an expression changes nothing about it but its leaves. Two trees are
`Alike` under a relation if they have the same shape and the same numbers, and
the relation holds between the sets at the same places. What a layout makes of
a tree depends only on that, with the texts of the sets for the relation.

## Main results

* `Alike.of_run_mapM` — what comes out of a traversal is like what went in.
* `Alike.span` — two evaluations of one expression are alike.
* `Alike.eq_of_sets` — a tree is told by its shape and its sets.
* `Alike.text_eq`, `Alike.groups_eq` — trees that are alike have one layout.
-/

namespace DiceFormula.Expr

variable {δ ε ζ : Type}

/-- The trees differ in their sets only, and `R` holds between the sets at the
same places. -/
inductive Alike (R : δ → ε → Prop) : Expr δ → Expr ε → Prop
  | num (n : Value) : Alike R (.num n) (.num n)
  | dice {d : δ} {d' : ε} (h : R d d') : Alike R (.dice d) (.dice d')
  | group {e : Expr δ} {e' : Expr ε} (h : Alike R e e') :
      Alike R (.group e) (.group e')
  | neg {e : Expr δ} {e' : Expr ε} (h : Alike R e e') :
      Alike R (.neg e) (.neg e')
  | binary (op : Op) {a b : Expr δ} {a' b' : Expr ε} (ha : Alike R a a')
      (hb : Alike R b b') : Alike R (.binary op a b) (.binary op a' b')

variable {R : δ → ε → Prop} {S : δ → ζ → Prop} {e : Expr δ} {e' : Expr ε}
  {e'' : Expr ζ}

theorem Alike.refl (e : Expr δ) : Alike Eq e e := by
  induction e with
  | num n => exact .num n
  | dice d => exact .dice rfl
  | group e ih => exact .group ih
  | neg e ih => exact .neg ih
  | binary op a b iha ihb => exact .binary op iha ihb

theorem Alike.mono {R' : δ → ε → Prop} (h : Alike R e e')
    (hImp : ∀ d d', R d d' → R' d d') : Alike R' e e' := by
  induction h with
  | num n => exact .num n
  | dice h => exact .dice (hImp _ _ h)
  | group _ ih => exact .group ih
  | neg _ ih => exact .neg ih
  | binary op _ _ iha ihb => exact .binary op iha ihb

/-- Trees that are like one tree are like each other. -/
theorem Alike.span (h : Alike R e e') (h' : Alike S e e'') :
    Alike (fun x y => ∃ d, R d x ∧ S d y) e' e'' := by
  induction h generalizing e'' with
  | num n =>
      cases h'
      exact .num n
  | @dice d d' h =>
      cases h' with
      | dice h' => exact .dice ⟨d, h, h'⟩
  | group _ ih =>
      cases h' with
      | group h' => exact .group (ih h')
  | neg _ ih =>
      cases h' with
      | neg h' => exact .neg (ih h')
  | binary op _ _ iha ihb =>
      cases h' with
      | binary _ ha hb => exact .binary op (iha ha) (ihb hb)

theorem Alike.kind_eq (h : Alike R e e') : e.kind = e'.kind := by
  cases h <;> rfl

/-! ## Sets -/

theorem Alike.map_sets_eq {f : ε → δ} (h : Alike (fun d d' => f d' = d) e e') :
    e'.sets.map f = e.sets := by
  induction h with
  | num n => rfl
  | dice h => exact congrArg (fun d => [d]) h
  | group _ ih => exact ih
  | neg _ ih => exact ih
  | binary op _ _ iha ihb => rw [sets, List.map_append, iha, ihb, sets]

theorem Alike.length_sets (h : Alike R e e') : e.sets.length = e'.sets.length := by
  induction h with
  | num n => rfl
  | dice h => rfl
  | group _ ih => exact ih
  | neg _ ih => exact ih
  | binary op _ _ iha ihb => simp only [sets, List.length_append, iha, ihb]

/-- A tree is told by its shape and its sets. -/
theorem Alike.eq_of_sets {S : δ → ε → Prop} {e'' : Expr ε} (h : Alike R e e')
    (h' : Alike S e e'') (hSets : e'.sets = e''.sets) : e' = e'' := by
  induction h generalizing e'' with
  | num n =>
      cases h'
      rfl
  | dice h =>
      cases h' with
      | dice h' =>
        rw [List.singleton_inj.1 hSets]
  | group _ ih =>
      cases h' with
      | group h' => rw [ih h' hSets]
  | neg _ ih =>
      cases h' with
      | neg h' => rw [ih h' hSets]
  | binary op ha hb iha ihb =>
      cases h' with
      | binary _ ha' hb' =>
          have hLength := ha.length_sets.symm.trans ha'.length_sets
          obtain ⟨hLeft, hRight⟩ := List.append_inj hSets hLength
          rw [iha ha' hLeft, ihb hb' hRight]

/-! ## Layouts -/

variable {leaf : δ → String} {leaf' : ε → String}

theorem Alike.text_eq (h : Alike (fun d d' => leaf d = leaf' d') e e') :
    e.text leaf = e'.text leaf' := by
  induction h with
  | num n => rfl
  | dice h => exact h
  | group _ ih => simp only [text, ih]
  | neg h ih => simp only [text, ih, h.kind_eq]
  | binary op ha hb iha ihb =>
      simp only [text, iha, ihb, ha.kind_eq, hb.kind_eq]

theorem Alike.groups_eq (h : Alike (fun d d' => leaf d = leaf' d') e e') :
    e.groups leaf = e'.groups leaf' := by
  induction h with
  | num n => rfl
  | dice h => simp only [groups, h]
  | group _ ih => simp only [groups, ih]
  | neg h ih => simp only [groups, ih, h.kind_eq]
  | binary op ha hb iha ihb =>
      simp only [groups, iha, ihb, ha.kind_eq, hb.kind_eq]

/-! ## Traversals -/

/-- A traversal puts a set in the place of every set, and each of them is what
its own step answered. -/
theorem Alike.of_run_mapM {σ κ : Type} {f : δ → ExceptT κ (Rolling σ) ε}
    {roller : Roller σ} {table last : Table σ}
    (h : (e.mapM f).run roller table = (.ok (.ok e'), last)) :
    Alike (fun d d' => ∃ before after,
      (f d).run roller before = (.ok (.ok d'), after)) e e' := by
  induction e generalizing table last e' with
  | num n =>
      rw [mapM, Rolling.run_pure] at h
      cases h
      exact .num n
  | dice d =>
      obtain ⟨d', middle, hSet, hPure⟩ := Rolling.run_bind_eq_ok_iff.1 h
      rw [Rolling.run_pure] at hPure
      cases hPure
      exact .dice ⟨_, _, hSet⟩
  | group e ih =>
      obtain ⟨a, middle, hInner, hPure⟩ := Rolling.run_bind_eq_ok_iff.1 h
      rw [Rolling.run_pure] at hPure
      cases hPure
      exact .group (ih hInner)
  | neg e ih =>
      obtain ⟨a, middle, hInner, hPure⟩ := Rolling.run_bind_eq_ok_iff.1 h
      rw [Rolling.run_pure] at hPure
      cases hPure
      exact .neg (ih hInner)
  | binary op a b iha ihb =>
      obtain ⟨a', middle, hLeft, hMore⟩ := Rolling.run_bind_eq_ok_iff.1 h
      obtain ⟨b', middle', hRight, hPure⟩ := Rolling.run_bind_eq_ok_iff.1 hMore
      rw [Rolling.run_pure] at hPure
      cases hPure
      exact .binary op (iha hLeft) (ihb hRight)

/-- The sets of an evaluated expression are rolls of those of the
expression. -/
theorem Alike.of_evaluate {σ : Type} {e : Expr Dice} {evaluated : Evaluated}
    {roller : Roller σ} {table last : Table σ}
    (h : e.evaluate.run roller table = (.ok (.ok evaluated), last)) :
    Alike (fun dice rolled => ∃ before after,
      (dice.roll true).run roller before = (.ok (.ok rolled), after))
      e evaluated := by
  refine (Alike.of_run_mapM h).mono ?_
  rintro dice rolled ⟨before, after, hRun⟩
  exact ⟨before, after, Rolling.run_adapt_eq_ok_iff.1 hRun⟩

end DiceFormula.Expr
