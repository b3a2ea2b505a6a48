import LifePath.Condition.Evaluation

/-!
# What the joins of a group mean

`evaluateGroup` goes through a group from left to right with one running result: a false result
skips members joined by `&`, a true one in front of `|` ends the group. This is lazy evaluation
with `&` binding tighter than `|`. A group falls apart at its `|` into runs of members joined by
`&` (`runs`); it holds if one of its runs holds, and a run holds if all of its members do. Runs are
evaluated up to the first that holds, and members of a run up to the first that does not.

`Condition.evaluateByRuns` evaluates a whole tree that way, and `evaluateRest_eq` is the step that
ties it to the running result: a true result stands for a run that is still open, a false one for a
run that is lost.
-/

namespace LifePath

/-! ## The runs of a group -/

section

variable {α : Type}

/-- The members that are still in the run of the one before them, and the runs after it. -/
def runsAfter : List α → List Join → List α × List (List α)
  | next :: rest, .and :: joins =>
    (next :: (runsAfter rest joins).1, (runsAfter rest joins).2)
  | next :: rest, .or :: joins =>
    ([], (next :: (runsAfter rest joins).1) :: (runsAfter rest joins).2)
  | _, _ => ([], [])

/-- The members of a group in runs, divided where a `|` stands. -/
def runs : List α → List Join → List (List α)
  | [], _ => []
  | first :: rest, joins => (first :: (runsAfter rest joins).1) :: (runsAfter rest joins).2

/-- The joins of a group that has these runs: `&` inside each run and `|` between them. -/
def joinsOfRuns : List (List α) → List Join
  | [] => []
  | [run] => List.replicate (run.length - 1) .and
  | run :: rest => List.replicate (run.length - 1) .and ++ .or :: joinsOfRuns rest

theorem runsAfter_flatten :
    ∀ {rest : List α} {joins : List Join}, joins.length = rest.length →
      (runsAfter rest joins).1 ++ (runsAfter rest joins).2.flatten = rest := by
  intro rest
  induction rest with
  | nil => intro joins h; simp [runsAfter]
  | cons next rest ih =>
    intro joins h
    cases joins with
    | nil => simp at h
    | cons j joins =>
      have hrest := ih (by simpa using h)
      cases j with
      | and => simp [runsAfter, hrest]
      | or => simp [runsAfter, hrest]

/-- The joins of a run with one more member in front. -/
theorem joinsOfRuns_cons_cons (first next : α) (run : List α) (rest : List (List α)) :
    joinsOfRuns ((first :: next :: run) :: rest) = .and :: joinsOfRuns ((next :: run) :: rest) := by
  cases rest <;> simp [joinsOfRuns, List.replicate_succ]

theorem joinsOfRuns_runsAfter :
    ∀ {rest : List α} {joins : List Join} (first : α), joins.length = rest.length →
      joinsOfRuns ((first :: (runsAfter rest joins).1) :: (runsAfter rest joins).2) = joins := by
  intro rest
  induction rest with
  | nil =>
    intro joins first h
    obtain rfl : joins = [] := by simpa using h
    rfl
  | cons next rest ih =>
    intro joins first h
    cases joins with
    | nil => simp at h
    | cons j joins =>
      have hrest := ih next (by simpa using h)
      cases j with
      | and =>
        simp only [runsAfter]
        rw [joinsOfRuns_cons_cons, hrest]
      | or =>
        show .or :: joinsOfRuns (runs (next :: rest) joins) = .or :: joins
        rw [runs, hrest]

theorem nil_notMem_runsAfter :
    ∀ {rest : List α} {joins : List Join}, [] ∉ (runsAfter rest joins).2 := by
  intro rest
  induction rest with
  | nil => intro joins; simp [runsAfter]
  | cons next rest ih =>
    intro joins
    cases joins with
    | nil => simp [runsAfter]
    | cons j joins => cases j <;> simp [runsAfter, ih]

/-- The runs are the members in order, `&` stands inside the runs and `|` between them, and no run
is empty. -/
theorem runs_spec {members : List α} {joins : List Join} (hne : members ≠ [])
    (h : joins.length + 1 = members.length) :
    (runs members joins).flatten = members ∧ joinsOfRuns (runs members joins) = joins ∧
      [] ∉ runs members joins := by
  cases members with
  | nil => exact absurd rfl hne
  | cons first rest =>
    have hlen : joins.length = rest.length := by simpa using h
    refine ⟨?_, joinsOfRuns_runsAfter first hlen, ?_⟩
    · rw [runs, List.flatten_cons, List.cons_append, runsAfter_flatten hlen]
    · simp [runs, nil_notMem_runsAfter]

theorem runsAfter_map {β : Type} (f : α → β) :
    ∀ (rest : List α) (joins : List Join),
      runsAfter (rest.map f) joins =
        ((runsAfter rest joins).1.map f, (runsAfter rest joins).2.map (List.map f)) := by
  intro rest
  induction rest with
  | nil => intro joins; rfl
  | cons next rest ih =>
    intro joins
    cases joins with
    | nil => rfl
    | cons j joins => cases j <;> simp [runsAfter, ih]

theorem runs_map {β : Type} (f : α → β) (members : List α) (joins : List Join) :
    runs (members.map f) joins = (runs members joins).map (List.map f) := by
  cases members with
  | nil => rfl
  | cons first rest => simp [runs, runsAfter_map]

end

namespace Verdict

/-! ## Lazy verdicts -/

/-- The verdict on a run: its members in order, up to the first that is false. -/
def allOf : List Verdict → Verdict
  | [] => .pure true
  | v :: rest => v.andThen fun b => if b then allOf rest else .pure false

/-- The verdict on runs: in order, up to the first that is true. -/
def anyOf : List (List Verdict) → Verdict
  | [] => .pure false
  | run :: rest => (allOf run).andThen fun b => if b then .pure true else anyOf rest

@[simp] theorem pure_andThen (b : Bool) (next : Bool → Verdict) :
    (pure b).andThen next = next b := by
  simp [pure, andThen]

theorem andThen_assoc (v : Verdict) (f g : Bool → Verdict) :
    (v.andThen f).andThen g = v.andThen fun b => (f b).andThen g := by
  obtain ⟨outcome, asked⟩ := v
  cases outcome with
  | error fault => rfl
  | ok b =>
    simp only [andThen]
    cases hb : (f b).outcome <;> simp [hb]

/-- Going on after a run that has one more member in front. -/
theorem allOf_cons_andThen (v : Verdict) (run : List Verdict) (next : Bool → Verdict) :
    (allOf (v :: run)).andThen next =
      v.andThen fun b => if b then (allOf run).andThen next else next false := by
  rw [allOf, andThen_assoc]
  congr 1
  funext b
  cases b <;> simp

/-! ## What is come to -/

/-- The members of a run that are come to: up to the first that is not true. -/
def reachedInRun : List Verdict → List Verdict
  | [] => []
  | v :: rest => if v.outcome matches .ok true then v :: reachedInRun rest else [v]

/-- The members of runs that are come to: a run is begun if the ones before it are false. -/
def reached : List (List Verdict) → List Verdict
  | [] => []
  | run :: rest =>
    if (allOf run).outcome matches .ok false then reachedInRun run ++ reached rest
    else reachedInRun run

theorem allOf_reached (run : List Verdict) :
    (allOf run).asked = (reachedInRun run).flatMap asked ∧
      ∀ fault, (allOf run).outcome = .error fault ↔
        ∃ v ∈ reachedInRun run, v.outcome = .error fault := by
  induction run with
  | nil => simp [allOf, reachedInRun, pure]
  | cons v rest ih =>
    obtain ⟨outcome, codes⟩ := v
    rcases outcome with fault' | b
    · simp [allOf, reachedInRun, andThen]
    · cases b with
      | false => simp [allOf, reachedInRun, andThen, pure]
      | true => simp [allOf, reachedInRun, andThen, ih]

/-- What is asked for is what the members that are come to ask for, and the fault is that of a
member that is come to. -/
theorem anyOf_reached (rs : List (List Verdict)) :
    (anyOf rs).asked = (reached rs).flatMap asked ∧
      ∀ fault, (anyOf rs).outcome = .error fault ↔
        ∃ v ∈ reached rs, v.outcome = .error fault := by
  induction rs with
  | nil => simp [anyOf, reached, pure]
  | cons run rest ih =>
    obtain ⟨hasked, hfault⟩ := allOf_reached run
    rcases hall : (allOf run).outcome with fault' | b
    · rw [hall] at hfault
      simp [anyOf, reached, andThen, hall, hasked, hfault]
    · cases b with
      | false =>
        have hreached : reached (run :: rest) = reachedInRun run ++ reached rest := by
          simp [reached, hall]
        have hany : anyOf (run :: rest) =
            ⟨(anyOf rest).outcome, (allOf run).asked ++ (anyOf rest).asked⟩ := by
          simp [anyOf, andThen, hall]
        rw [hreached, hany]
        refine ⟨by simp [hasked, ih.1], ?_⟩
        intro fault
        -- a run that is false has come to no fault, so the fault is one of the runs after it
        have hnone : ¬ ∃ v ∈ reachedInRun run, v.outcome = .error fault := by
          rw [← hfault, hall]
          simp
        show (anyOf rest).outcome = .error fault ↔ _
        rw [ih.2]
        constructor
        · rintro ⟨v, hv, hf⟩
          exact ⟨v, List.mem_append_right _ hv, hf⟩
        · rintro ⟨v, hv, hf⟩
          rcases List.mem_append.mp hv with hv | hv
          · exact absurd ⟨v, hv, hf⟩ hnone
          · exact ⟨v, hv, hf⟩
      | true =>
        rw [hall] at hfault
        simp [anyOf, reached, andThen, pure, hall, hasked, ← hfault]

end Verdict

/-! ## Evaluation by runs -/

mutual

/-- Evaluates a condition by the runs of its groups; the group without members holds. -/
def Condition.evaluateByRuns (source : Source) : Condition → Verdict
  | .leaf text => evaluateLeaf source text
  | .group [] _ => .pure true
  | .group (first :: rest) joins =>
    .anyOf (runs (first.evaluateByRuns source :: evaluateEachByRuns source rest) joins)

/-- Evaluates each of some members. -/
def evaluateEachByRuns (source : Source) : List Condition → List Verdict
  | [] => []
  | c :: rest => c.evaluateByRuns source :: evaluateEachByRuns source rest

end

/-- The running result in terms of runs: if it is true, the run that it stands for is still open,
and if it is false, that run is lost. -/
theorem evaluateRest_eq (source : Source) :
    ∀ (rest : List Condition) (joins : List Join) (b : Bool),
      evaluateRest source b rest joins =
        (Verdict.pure b).andThen fun b =>
          if b then
            (Verdict.allOf (runsAfter (rest.map (·.evaluate source)) joins).1).andThen fun b =>
              if b then .pure true
              else .anyOf (runsAfter (rest.map (·.evaluate source)) joins).2
          else .anyOf (runsAfter (rest.map (·.evaluate source)) joins).2 := by
  intro rest
  induction rest with
  | nil =>
    intro joins b
    cases b <;> simp [evaluateRest, runsAfter, Verdict.allOf, Verdict.anyOf]
  | cons next rest ih =>
    intro joins b
    cases joins with
    | nil => cases b <;> simp [evaluateRest, runsAfter, Verdict.allOf, Verdict.anyOf]
    | cons j joins =>
      -- `&` goes on with the run that the result stands for, `|` begins the next one
      cases j with
      | and =>
        cases b with
        | false => simp [evaluateRest, runsAfter, ih]
        | true => simp [evaluateRest, runsAfter, ih, Verdict.allOf_cons_andThen]
      | or =>
        cases b with
        | false => simp [evaluateRest, runsAfter, ih, Verdict.anyOf, Verdict.allOf_cons_andThen]
        | true => simp [evaluateRest, runsAfter, Verdict.allOf]

theorem evaluateGroup_eq (source : Source) (first : Condition) (rest : List Condition)
    (joins : List Join) :
    evaluateGroup source (first :: rest) joins =
      .anyOf (runs ((first :: rest).map (·.evaluate source)) joins) := by
  simp [evaluateGroup, runs, Verdict.anyOf, Verdict.allOf_cons_andThen, evaluateRest_eq]

mutual

/-- The two evaluations of a condition agree, outcome and questions alike. -/
theorem evaluate_eq_byRuns (source : Source) :
    ∀ c : Condition, c.evaluate source = c.evaluateByRuns source
  | .leaf text => by rw [Condition.evaluate, Condition.evaluateByRuns]
  | .group [] joins => by rw [Condition.evaluate, Condition.evaluateByRuns, evaluateGroup]
  | .group (first :: rest) joins => by
    rw [Condition.evaluate, Condition.evaluateByRuns, evaluateGroup_eq, List.map_cons,
      evaluate_eq_byRuns source first, map_evaluate_eq_byRuns source rest]

theorem map_evaluate_eq_byRuns (source : Source) :
    ∀ members : List Condition,
      members.map (·.evaluate source) = evaluateEachByRuns source members
  | [] => rfl
  | c :: rest => by
    rw [List.map_cons, evaluateEachByRuns, evaluate_eq_byRuns source c,
      map_evaluate_eq_byRuns source rest]

end

mutual

/-- Every group in a condition that has members has one join fewer than members. -/
def Condition.WellJoined : Condition → Prop
  | .leaf _ => True
  | .group members joins =>
    (members ≠ [] → joins.length + 1 = members.length) ∧ EachWellJoined members

/-- The same of each of some members. -/
def EachWellJoined : List Condition → Prop
  | [] => True
  | c :: rest => c.WellJoined ∧ EachWellJoined rest

end

/-- **`&` binds tighter than `|`, and both are lazy.** Evaluating a condition gives the outcome and
asks for the codes that its runs give and ask for. In each group the runs are the members divided
at the `|`; what is asked for is what the members that are come to ask for, in order, and a fault is
the outcome exactly if a member that is come to has it. -/
theorem evaluate_lazily (source : Source) (c : Condition) (h : c.WellJoined) :
    c.evaluate source = c.evaluateByRuns source ∧
      ∀ (members : List Condition) (joins : List Join),
        c = .group members joins → members ≠ [] →
        ((runs members joins).flatten = members ∧ joinsOfRuns (runs members joins) = joins ∧
          [] ∉ runs members joins) ∧
        let verdicts := (runs members joins).map fun run => run.map (·.evaluate source)
        c.evaluate source = .anyOf verdicts ∧
          (c.evaluate source).asked = (Verdict.reached verdicts).flatMap Verdict.asked ∧
          ∀ fault, (c.evaluate source).outcome = .error fault ↔
            ∃ v ∈ Verdict.reached verdicts, v.outcome = .error fault := by
  refine ⟨evaluate_eq_byRuns source c, ?_⟩
  intro members joins hc hne
  subst hc
  refine ⟨runs_spec hne (h.1 hne), ?_⟩
  intro verdicts
  have hany : (Condition.group members joins).evaluate source = .anyOf verdicts := by
    obtain ⟨first, rest, rfl⟩ := List.exists_cons_of_ne_nil hne
    rw [Condition.evaluate, evaluateGroup_eq, runs_map]
  rw [hany]
  exact ⟨rfl, Verdict.anyOf_reached verdicts⟩

/-- With the first member true and the last one false, a group joined by `|` and then `&` holds
after one question; read strictly from left to right it would not. -/
theorem evaluate_lazily_or_and :
    let source : Source := fun code => some (.number (if code = "CHR" then 1 else 0))
    let a := Condition.leaf "CHR>0"
    let b := Condition.leaf "INT>0"
    let c := Condition.leaf "STR>0"
    (Condition.group [a, b, c] [.or, .and]).WellJoined ∧
      (Condition.group [a, b, c] [.or, .and]).evaluateByRuns source = ⟨.ok true, ["CHR"]⟩ ∧
      (Condition.group [.group [a, b] [.or], c] [.and]).evaluateByRuns source
        = ⟨.ok false, ["CHR", "STR"]⟩ := by
  intro source a b c
  have hflat : (Condition.group [a, b, c] [.or, .and]).WellJoined :=
    ⟨fun _ => rfl, trivial, trivial, trivial, trivial⟩
  have hstrict : (Condition.group [.group [a, b] [.or], c] [.and]).WellJoined :=
    ⟨fun _ => rfl, ⟨fun _ => rfl, trivial, trivial, trivial⟩, trivial, trivial⟩
  refine ⟨hflat, ?_, ?_⟩
  · rw [← (evaluate_lazily source _ hflat).1]
    rfl
  · rw [← (evaluate_lazily source _ hstrict).1]
    rfl

end LifePath
