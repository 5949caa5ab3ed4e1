import Mathlib.Data.List.Basic
import Mathlib.Tactic.Basic

/-!
# A cache with one entry

A value that is expensive to make is kept together with the key of the
configuration it was made from, and handed out again as long as the key stays
the same. The configuration may be changed at any time. A call that has to make
the value may fail, for a reason in the configuration or for one of its own; it
then leaves the entry alone.

What makes such a cache right is that the key covers everything the value is made
from. `Traced` runs the cache together with the configuration its entry was made
from, which the cache itself does not keep, and `coherent_iff` says exactly when
a call hands out what would be made now: when the two configurations, if they
share their key, make the same. Nothing is assumed of the key.

## Main definitions

* `Recipe`: Keys, values, and how they are made.
* `Recipe.call`: Hand the entry out or make a new one.
* `Traced`: A configuration, the entry and what the entry was made from.
* `Act`, `Recipe.act`, `Recipe.run`: Change the configuration, or call.
* `Recipe.Faithful`: The entry was made from the configuration on record.

## Theorems

* `call_cases`: What a call can do.
* `faithful_act`, `faithful_run`: The record stays right.
* `coherent_iff`: When a call hands out what would be made now.
-/

namespace SendingSystem

namespace Memo

/-- How values are made: `make` from a configuration alone, `build` in a call,
    which makes that value or fails. -/
structure Recipe (Config Key Env Error Value : Type) where
  key : Config → Key
  make : Config → Except Error Value
  build : Env → Config → Except Error Value
  build_ok : ∀ e c v, build e c = .ok v → make c = .ok v

/-- A configuration, the entry with its key, and what the entry was made from. -/
structure Traced (Config Key Value : Type) where
  config : Config
  entry : Option (Key × Value)
  built : Option Config

/-- A change of the configuration, or a call. -/
inductive Act (Config Env : Type) where
  | change (f : Config → Config)
  | call (e : Env)

variable {Config Key Env Error Value : Type} [DecidableEq Key]
variable (R : Recipe Config Key Env Error Value)

namespace Recipe

/-- The value on hand, if its key is the current one. -/
def hit (c : Config) (entry : Option (Key × Value)) : Option Value :=
  match entry with
  | none => none
  | some p => if p.1 = R.key c then some p.2 else none

/-- Hand the entry out or make a new one. -/
def call (e : Env) (c : Config) (entry : Option (Key × Value)) :
    Except Error Value × Option (Key × Value) :=
  match R.hit c entry with
  | some v => (.ok v, entry)
  | none =>
    match R.build e c with
    | .ok v => (.ok v, some (R.key c, v))
    | .error x => (.error x, entry)

/-- What the entry was made from after a call. -/
def record (e : Env) (s : Traced Config Key Value) : Option Config :=
  match R.hit s.config s.entry with
  | some _ => s.built
  | none =>
    match R.build e s.config with
    | .ok _ => some s.config
    | .error _ => s.built

/-- One action, with the record kept. -/
def act (s : Traced Config Key Value) : Act Config Env → Traced Config Key Value
  | .change f => { s with config := f s.config }
  | .call e => ⟨s.config, (R.call e s.config s.entry).2, R.record e s⟩

/-- Some actions in a row. -/
def run (s : Traced Config Key Value) (l : List (Act Config Env)) : Traced Config Key Value :=
  l.foldl R.act s

/-- The entry was made from the configuration on record. -/
inductive Faithful (s : Traced Config Key Value) : Prop where
  | fresh (hentry : s.entry = none) (hbuilt : s.built = none) : Faithful s
  | made (c : Config) (v : Value) (hbuilt : s.built = some c) (hentry : s.entry = some (R.key c, v))
      (hmake : R.make c = .ok v) : Faithful s

end Recipe

variable {R}

/-- An entry is handed out when its key is the current one. -/
theorem hit_some {c c₀ : Config} {v : Value} :
    R.hit c (some (R.key c₀, v)) = if R.key c₀ = R.key c then some v else none := rfl

/-- What a call can do: hand the entry out, make a new one, or fail. -/
theorem call_cases (e : Env) (s : Traced Config Key Value) :
    (∃ v, R.hit s.config s.entry = some v ∧
      R.call e s.config s.entry = (.ok v, s.entry) ∧ R.record e s = s.built) ∨
    (∃ v, R.hit s.config s.entry = none ∧ R.build e s.config = .ok v ∧
      R.call e s.config s.entry = (.ok v, some (R.key s.config, v)) ∧
      R.record e s = some s.config) ∨
    (∃ x, R.hit s.config s.entry = none ∧
      R.call e s.config s.entry = (.error x, s.entry) ∧ R.record e s = s.built) := by
  unfold Recipe.call Recipe.record
  cases hhit : R.hit s.config s.entry with
  | some v => exact Or.inl ⟨v, rfl, rfl, rfl⟩
  | none =>
      cases hbuild : R.build e s.config with
      | ok v => exact Or.inr (Or.inl ⟨v, rfl, rfl, rfl, rfl⟩)
      | error x => exact Or.inr (Or.inr ⟨x, rfl, rfl, rfl⟩)

/-- No action spoils the record. -/
theorem faithful_act {s : Traced Config Key Value} (h : R.Faithful s) (a : Act Config Env) :
    R.Faithful (R.act s a) := by
  cases a with
  | change f =>
      cases h with
      | fresh hentry hbuilt => exact .fresh hentry hbuilt
      | made c v hbuilt hentry hmake => exact .made c v hbuilt hentry hmake
  | call e =>
      -- Only a call that makes a new entry changes anything, and it updates both.
      rcases call_cases e s with ⟨v, _, hcall, hrecord⟩ | ⟨v, _, hbuild, hcall, hrecord⟩ |
        ⟨x, _, hcall, hrecord⟩
      · rw [Recipe.act, hcall, hrecord]
        exact h
      · rw [Recipe.act, hcall, hrecord]
        exact .made s.config v rfl rfl (R.build_ok e _ v hbuild)
      · rw [Recipe.act, hcall, hrecord]
        exact h

theorem faithful_run (l : List (Act Config Env)) :
    ∀ s : Traced Config Key Value, R.Faithful s → R.Faithful (R.run s l) := by
  induction l with
  | nil => exact fun _ h => h
  | cons a l ih => exact fun s h => ih (R.act s a) (faithful_act h a)

/-- A call hands out what would be made now exactly when the configuration its
    entry was made from, if it has the current key, makes the same. -/
theorem coherent_iff {s : Traced Config Key Value} (h : R.Faithful s) (e : Env) :
    (∀ v, (R.call e s.config s.entry).1 = .ok v → R.make s.config = .ok v) ↔
      ∀ c, s.built = some c → R.key c = R.key s.config → R.make c = R.make s.config := by
  constructor
  · intro hcall c hbuilt hkey
    cases h with
    | fresh _ hnone =>
        rw [hnone] at hbuilt
        simp only [reduceCtorEq] at hbuilt
    | made c₀ v hbuilt₀ hentry hmake =>
        rw [hbuilt₀, Option.some.injEq] at hbuilt
        rw [hbuilt] at hentry hmake
        -- With the same key, the call hands out the entry.
        have hhit : R.hit s.config s.entry = some v := by rw [hentry, hit_some, if_pos hkey]
        rw [hmake, hcall v (by rw [Recipe.call, hhit])]
  · intro hsame v hv
    rcases call_cases e s with ⟨w, hhit, hcall, _⟩ | ⟨w, _, hbuild, hcall, _⟩ | ⟨x, _, hcall, _⟩
    · rw [hcall, Except.ok.injEq] at hv
      cases h with
      | fresh hnone _ =>
          rw [hnone] at hhit
          simp only [Recipe.hit, reduceCtorEq] at hhit
      | made c₀ v₀ hbuilt hentry hmake =>
          rw [hentry, hit_some] at hhit
          -- An entry handed out has the current key.
          by_cases hkey : R.key c₀ = R.key s.config
          · rw [if_pos hkey, Option.some.injEq] at hhit
            rw [← hsame c₀ hbuilt hkey, hmake, hhit, hv]
          · rw [if_neg hkey] at hhit
            simp only [reduceCtorEq] at hhit
    · rw [hcall, Except.ok.injEq] at hv
      rw [R.build_ok e _ w hbuild, hv]
    · rw [hcall] at hv
      simp only [reduceCtorEq] at hv

end Memo

end SendingSystem
