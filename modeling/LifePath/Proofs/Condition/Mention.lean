import LifePath.Condition.Evaluation

/-!
# What a condition asks about

A condition asks a source only about the attributes that its leaves compare (`Mentions`). Sources
that agree on those give the same verdict, faults and questions included: a leaf that is no
comparison asks for nothing, wherever in the condition it stands.
-/

namespace LifePath

mutual

/-- The texts of the leaves, from left to right. -/
def Condition.leaves : Condition → List String
  | .leaf text => [text]
  | .group members _ => leavesOfEach members

def leavesOfEach : List Condition → List String
  | [] => []
  | c :: rest => c.leaves ++ leavesOfEach rest

end

/-- Whether a text, read as a condition, compares the attribute under a code. -/
def Mentions (text code : String) : Prop :=
  ∃ leaf ∈ (Condition.read text).leaves, ∃ c, Comparison.read leaf = .ok c ∧ c.code = code

/-- Whether two sources know the same about whatever the leaves compare. -/
def AgreeOn (source source' : Source) (leaves : List String) : Prop :=
  ∀ leaf ∈ leaves, ∀ c, Comparison.read leaf = .ok c → source c.code = source' c.code

variable {source source' : Source}

theorem AgreeOn.left {leaves more : List String} (h : AgreeOn source source' (leaves ++ more)) :
    AgreeOn source source' leaves :=
  fun leaf hleaf => h leaf (List.mem_append_left _ hleaf)

theorem AgreeOn.right {leaves more : List String} (h : AgreeOn source source' (leaves ++ more)) :
    AgreeOn source source' more :=
  fun leaf hleaf => h leaf (List.mem_append_right _ hleaf)

theorem evaluateLeaf_congr {text : String} (h : AgreeOn source source' [text]) :
    evaluateLeaf source text = evaluateLeaf source' text := by
  unfold evaluateLeaf
  cases hread : Comparison.read text with
  | error fault => rfl
  | ok c =>
    have hknown := h text (List.mem_singleton_self text) c hread
    simp only [hknown]

mutual

theorem evaluate_congr :
    ∀ c : Condition, AgreeOn source source' c.leaves → c.evaluate source = c.evaluate source'
  | .leaf text, h => by
    rw [Condition.evaluate, Condition.evaluate, evaluateLeaf_congr h]
  | .group [] joins, _ => by
    rw [Condition.evaluate, Condition.evaluate, evaluateGroup, evaluateGroup]
  | .group (first :: rest) joins, h => by
    rw [Condition.leaves, leavesOfEach] at h
    rw [Condition.evaluate, Condition.evaluate, evaluateGroup, evaluateGroup,
      evaluate_congr first h.left]
    congr 1
    funext b
    exact evaluateRest_congr rest joins b h.right

theorem evaluateRest_congr :
    ∀ (rest : List Condition) (joins : List Join) (b : Bool),
      AgreeOn source source' (leavesOfEach rest) →
      evaluateRest source b rest joins = evaluateRest source' b rest joins
  | [], _, _, _ => by simp only [evaluateRest]
  | _ :: _, [], _, _ => by simp only [evaluateRest]
  | next :: rest, j :: joins, b, h => by
    rw [leavesOfEach] at h
    have hnext := evaluate_congr next h.left
    have hrest := fun b => evaluateRest_congr rest joins b h.right
    cases j with
    | and => simp only [evaluateRest, hnext, hrest]
    | or => simp only [evaluateRest, hnext, hrest]

end

/-- A condition has the same outcome against sources that agree on what it mentions. -/
theorem checkCondition_congr {text : String}
    (h : ∀ code, Mentions text code → source code = source' code) :
    checkCondition source text = checkCondition source' text := by
  have hagree : AgreeOn source source' (Condition.read text).leaves :=
    fun leaf hleaf c hc => h c.code ⟨leaf, hleaf, c, hc, rfl⟩
  rw [checkCondition, checkCondition, evaluate_congr _ hagree]

end LifePath
