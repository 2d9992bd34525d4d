import Mathlib.Data.Option.Basic
import Mathlib.Logic.Function.Basic
import Mathlib.Tactic

/-!
# A map under composed keys, and one under their parts

One map has its values under keys `c p` that are composed of parts, another one has them
under the parts `p` themselves. Different parts may have the same composed key.

* `Paired`: the two maps hold related values.
* `Clear`: what is under the composed key of some parts has these parts.
* `Paired.rel_iff`, `Paired.clear_iff`: the maps answer a look-up alike exactly when it is
  clear.
* `Paired.update_iff`: they are paired after a value is put into both exactly when that
  is clear, and the values are related.
* `paired_iff`: maps are paired when they hold related values, under whatever keys.
* `keyed_update`: values stay under their own keys when one is put under its own.
-/

namespace Rekey

variable {κ π α β : Type*}

/-- Two maps hold related values, each under its own key. -/
structure Paired (c : π → κ) (key : α → π) (S : α → β → Prop) (m : κ → Option α)
    (s : π → Option β) : Prop where
  left : ∀ {k a}, m k = some a → c (key a) = k ∧ ∃ b, s (key a) = some b ∧ S a b
  right : ∀ {p b}, s p = some b → ∃ a, m (c p) = some a ∧ key a = p ∧ S a b

/-- What is under the composed key of `p` has the parts `p`. -/
def Clear (c : π → κ) (key : α → π) (m : κ → Option α) (p : π) : Prop :=
  ∀ a, m (c p) = some a → key a = p

variable {c : π → κ} {key : α → π} {S T : α → β → Prop} {m : κ → Option α} {s : π → Option β}
  {p : π} {a : α} {b : β}

theorem paired_empty : Paired c key S (fun _ => none) fun _ => none :=
  ⟨fun ha => (by cases ha), fun hb => (by cases hb)⟩

theorem Paired.mono (h : Paired c key S m s) (hST : ∀ a b, S a b → T a b) :
    Paired c key T m s := by
  refine ⟨fun ha => ?_, fun hb => ?_⟩
  · obtain ⟨hk, b, hb, hab⟩ := h.left ha
    exact ⟨hk, b, hb, hST _ _ hab⟩
  · obtain ⟨a, ha, hkey, hab⟩ := h.right hb
    exact ⟨a, ha, hkey, hST _ _ hab⟩

/-- **A look-up that is clear** finds related values, or nothing. -/
theorem Paired.rel (h : Paired c key S m s) (hp : Clear c key m p) :
    Option.Rel S (m (c p)) (s p) := by
  cases hm : m (c p) with
  | none =>
    cases hs : s p with
    | none => exact .none
    | some b =>
      obtain ⟨a, ha, -⟩ := h.right hs
      rw [hm] at ha
      cases ha
  | some a =>
    obtain ⟨-, b, hb, hab⟩ := h.left hm
    rw [hp a hm] at hb
    rw [hb]
    exact .some hab

/-- **A look-up is clear** exactly when it finds something in both maps, or nothing. -/
theorem Paired.clear_iff (h : Paired c key S m s) :
    Clear c key m p ↔ (m (c p)).isSome = (s p).isSome := by
  constructor
  · intro hp
    have hrel := h.rel hp
    cases hm : m (c p) with
    | none =>
      rw [hm] at hrel
      cases hs : s p with
      | none => rfl
      | some b =>
        rw [hs] at hrel
        cases hrel
    | some a =>
      rw [hm] at hrel
      cases hs : s p with
      | none =>
        rw [hs] at hrel
        cases hrel
      | some b => rfl
  · intro hsame a ha
    rw [ha] at hsame
    obtain ⟨b, hb⟩ := Option.isSome_iff_exists.1 hsame.symm
    obtain ⟨a', ha', hkey, -⟩ := h.right hb
    rw [ha] at ha'
    rw [Option.some.inj ha']
    exact hkey

/-- A look-up finds related values, or nothing, exactly when it is clear. -/
theorem Paired.rel_iff (h : Paired c key S m s) :
    Option.Rel S (m (c p)) (s p) ↔ Clear c key m p := by
  refine ⟨fun hrel => h.clear_iff.2 ?_, h.rel⟩
  revert hrel
  generalize m (c p) = o
  generalize s p = o'
  intro hrel
  cases hrel with
  | none => rfl
  | some _ => rfl

section

variable [DecidableEq κ] [DecidableEq π]

/-- Values stay under their own keys when one is put under its own. -/
theorem keyed_update {key : α → κ} {k : κ} (hm : ∀ j b, m j = some b → key b = j)
    (hk : key a = k) : ∀ j b, Function.update m k (some a) j = some b → key b = j := by
  intro j b hb
  by_cases hj : j = k
  · rw [hj, Function.update_self] at hb
    rw [← Option.some.inj hb, hk, hj]
  · rw [Function.update_of_ne hj] at hb
    exact hm j b hb

/-- A value is put into both maps. -/
theorem Paired.update (h : Paired c key S m s) (hp : Clear c key m p) (hkey : key a = p)
    (hab : S a b) :
    Paired c key S (Function.update m (c p) (some a)) (Function.update s p (some b)) := by
  refine ⟨fun {k a'} ha' => ?_, fun {q b'} hb' => ?_⟩
  · by_cases hk : k = c p
    · subst hk
      rw [Function.update_self] at ha'
      obtain rfl := Option.some.inj ha'
      rw [hkey]
      exact ⟨rfl, b, Function.update_self .., hab⟩
    · rw [Function.update_of_ne hk] at ha'
      obtain ⟨hk', b', hb', hab'⟩ := h.left ha'
      have hne : key a' ≠ p := by
        rintro rfl
        exact hk hk'.symm
      exact ⟨hk', b', by rw [Function.update_of_ne hne, hb'], hab'⟩
  · by_cases hq : q = p
    · subst hq
      rw [Function.update_self] at hb'
      obtain rfl := Option.some.inj hb'
      exact ⟨a, Function.update_self .., hkey, hab⟩
    · rw [Function.update_of_ne hq] at hb'
      obtain ⟨a', ha', hkey', hab'⟩ := h.right hb'
      -- nothing else has the composed key of `p`
      have hne : c q ≠ c p := by
        intro hc
        rw [hc] at ha'
        exact hq (hkey'.symm.trans (hp a' ha'))
      exact ⟨a', by rw [Function.update_of_ne hne, ha'], hkey', hab'⟩

/-- **The maps stay paired** exactly when the place is clear, and the values are related. -/
theorem Paired.update_iff (h : Paired c key S m s) (hkey : key a = p) :
    Paired c key S (Function.update m (c p) (some a)) (Function.update s p (some b)) ↔
      Clear c key m p ∧ S a b := by
  constructor
  · intro h'
    obtain ⟨a', ha', -, hab⟩ := h'.right (Function.update_self p (some b) s)
    rw [Function.update_self] at ha'
    obtain rfl := Option.some.inj ha'
    refine ⟨fun a₀ ha₀ => ?_, hab⟩
    obtain ⟨hc, b₀, hb₀, -⟩ := h.left ha₀
    by_contra hne
    -- the second map would still have the value that the first one has lost
    obtain ⟨a₁, ha₁, hkey₁, -⟩ := h'.right (p := key a₀) (b := b₀)
      (by rw [Function.update_of_ne hne, hb₀])
    rw [hc, Function.update_self] at ha₁
    rw [← Option.some.inj ha₁] at hkey₁
    exact hne (hkey₁.symm.trans hkey)
  · rintro ⟨hp, hab⟩
    exact h.update hp hkey hab

end

/-- **Maps that hold related values** are paired, if each has its values under their own keys. -/
theorem paired_iff (key' : β → π) (hm : ∀ k a, m k = some a → c (key a) = k)
    (hs : ∀ p b, s p = some b → key' b = p) (hS : ∀ a b, S a b → key a = key' b) :
    Paired c key S m s ↔ (∀ a, (∃ k, m k = some a) → ∃ b, (∃ p, s p = some b) ∧ S a b) ∧
      (∀ b, (∃ p, s p = some b) → ∃ a, (∃ k, m k = some a) ∧ S a b) := by
  constructor
  · intro h
    refine ⟨fun a ⟨k, ha⟩ => ?_, fun b ⟨p, hb⟩ => ?_⟩
    · obtain ⟨-, b, hb, hab⟩ := h.left ha
      exact ⟨b, ⟨_, hb⟩, hab⟩
    · obtain ⟨a, ha, -, hab⟩ := h.right hb
      exact ⟨a, ⟨_, ha⟩, hab⟩
  · rintro ⟨hleft, hright⟩
    refine ⟨fun {k a} ha => ?_, fun {p b} hb => ?_⟩
    · obtain ⟨b, ⟨p, hb⟩, hab⟩ := hleft a ⟨k, ha⟩
      refine ⟨hm k a ha, b, ?_, hab⟩
      rw [hS a b hab, hs p b hb]
      exact hb
    · obtain ⟨a, ⟨k, ha⟩, hab⟩ := hright b ⟨p, hb⟩
      have hkey : key a = p := (hS a b hab).trans (hs p b hb)
      refine ⟨a, ?_, hkey, hab⟩
      rw [← hkey, hm k a ha]
      exact ha

end Rekey
