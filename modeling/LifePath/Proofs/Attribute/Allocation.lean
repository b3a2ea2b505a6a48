import LifePath.Attribute.Allocation

/-!
# What handing out attributes leaves alone

However attributes are handed out, by chance or by hand, a life begins with an empty history.
-/

namespace LifePath.Attributes

theorem history_set (a : Attributes) (code : Code) (n : Int) :
    (a.set code n).history = a.history := by
  cases code <;> rfl

theorem history_deal (cap : Int) (codes : List Code) :
    ∀ (remaining : Int) (a : Attributes) (c : Chance),
      (deal cap remaining codes a c).1.history = a.history := by
  induction codes with
  | nil => intro remaining a c; rfl
  | cons code rest ih =>
    intro remaining a c
    cases rest with
    | nil => exact history_set a code remaining
    | cons next rest =>
      rw [deal, ih]
      exact history_set ..

theorem history_random (s : Settings) (c : Chance) : (random s c).1.history = [] := by
  rw [random, history_deal]
  rfl

theorem history_setEach {cap : Int} {values : List (Code × Int)} :
    ∀ {a a' : Attributes}, setEach cap a values = .ok a' → a'.history = a.history := by
  induction values with
  | nil =>
    intro a a' h
    obtain rfl := Except.ok.inj h
    rfl
  | cons value rest ih =>
    obtain ⟨code, n⟩ := value
    intro a a' h
    rw [setEach] at h
    split at h
    · simp at h
    · rw [ih h, history_set]

theorem history_manual {s : Settings} {raw : String} {a : Attributes}
    (h : manual s raw = .ok a) : a.history = [] := by
  unfold manual at h
  split at h
  · simp at h
  · split at h
    · simp at h
    · simp only at h
      split at h
      · simp at h
      · rw [history_setEach h]
        rfl

end LifePath.Attributes
