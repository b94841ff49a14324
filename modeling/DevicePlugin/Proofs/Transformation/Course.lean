import DevicePlugin.Transformation.Basic

/-!
# The course of passes

Pipelines may stand in pipelines, but what runs are the passes at the leaves, from left to
right. Each runs once, on what the ones before it have left, up to the first that does not
succeed. Of the pipelines around it only the contexts of its error tell.
-/

namespace DevicePlugin

namespace Transformation

variable {μ : Type}

/-- A pass of a tree, with the number of pipelines that it stands in. -/
structure Leaf (μ : Type) where
  depth : Nat
  name : String
  body : PassBody μ

namespace Leaf

def deeper (l : Leaf μ) : Leaf μ := { l with depth := l.depth + 1 }

/-- Each pipeline names the pass that has failed in it. For all but the innermost this is a pipeline. -/
def contexts (l : Leaf μ) : List String :=
  match l.depth with
  | 0 => []
  | outer + 1 => (List.replicate outer pipelineName ++ [l.name]).map context

def raised (l : Leaf μ) (e : ErrorChain) : ErrorChain := { e with contexts := l.contexts ++ e.contexts }

end Leaf

mutual

def leaves : Transformation μ → List (Leaf μ)
  | .pass name body => [⟨0, name, body⟩]
  | .pipeline passes => leavesOfPasses passes

def leavesOfPasses : List (Transformation μ) → List (Leaf μ)
  | [] => []
  | p :: passes => p.leaves.map Leaf.deeper ++ leavesOfPasses passes

end

abbrev Stop (μ : Type) := Outcome (Leaf μ × ErrorChain) Unit

def Stop.map (f : Leaf μ → Leaf μ) : Stop μ → Stop μ
  | .ok () => .ok ()
  | .error (l, e) => .error (f l, e)
  | .panic => .panic

/-- Leaves run one after the other, each on the model that the one before has left, up to the first
that does not succeed. Listed are those that have run, and the changes that the successful ones of
them have reported. -/
inductive Course : List (Leaf μ) → μ → (ran : List (Leaf μ)) → (flags : List Bool) → Stop μ → μ → Prop
  | done {m : μ} : Course [] m [] [] (.ok ()) m
  | next {l : Leaf μ} {rest ran : List (Leaf μ)} {m m' last : μ} {changed : Bool} {flags : List Bool} {stop : Stop μ}
      (h : l.body m = (m', .ok changed)) (hrest : Course rest m' ran flags stop last) :
      Course (l :: rest) m (l :: ran) (changed :: flags) stop last
  | failed {l : Leaf μ} {rest : List (Leaf μ)} {m m' : μ} {e : ErrorChain} (h : l.body m = (m', .error e)) :
      Course (l :: rest) m [l] [] (.error (l, e)) m'
  | brokeOff {l : Leaf μ} {rest : List (Leaf μ)} {m m' : μ} (h : l.body m = (m', .panic)) :
      Course (l :: rest) m [l] [] .panic m'

def answered (flags : List Bool) : Stop μ → Outcome ErrorChain Bool
  | .ok () => .ok (flags.any id)
  | .error (l, e) => .error (l.raised e)
  | .panic => .panic

/-! ## Courses -/

section
variable {ls ls' ran ran' : List (Leaf μ)} {flags flags' : List Bool} {stop stop' : Stop μ} {m m' last last' : μ}

theorem Course.unique (h : Course ls m ran flags stop last) (h' : Course ls m ran' flags' stop' last') :
    ran' = ran ∧ flags' = flags ∧ stop' = stop ∧ last' = last := by
  induction h generalizing ran' flags' with
  | done =>
    cases h'
    exact ⟨rfl, rfl, rfl, rfl⟩
  | next hbody _ ih =>
    cases h' with
    | next hbody' hrest' =>
      cases hbody.symm.trans hbody'
      obtain ⟨rfl, rfl, hstop, hlast⟩ := ih hrest'
      exact ⟨rfl, rfl, hstop, hlast⟩
    | failed hbody' => cases hbody.symm.trans hbody'
    | brokeOff hbody' => cases hbody.symm.trans hbody'
  | failed hbody =>
    cases h' with
    | next hbody' _ => cases hbody.symm.trans hbody'
    | failed hbody' =>
      cases hbody.symm.trans hbody'
      exact ⟨rfl, rfl, rfl, rfl⟩
    | brokeOff hbody' => cases hbody.symm.trans hbody'
  | brokeOff hbody =>
    cases h' with
    | next hbody' _ => cases hbody.symm.trans hbody'
    | failed hbody' => cases hbody.symm.trans hbody'
    | brokeOff hbody' =>
      cases hbody.symm.trans hbody'
      exact ⟨rfl, rfl, rfl, rfl⟩

theorem Course.append (h : Course ls m ran flags (.ok ()) m') (h' : Course ls' m' ran' flags' stop last) :
    Course (ls ++ ls') m (ran ++ ran') (flags ++ flags') stop last := by
  generalize hstop : (.ok () : Stop μ) = stopped at h
  induction h with
  | done => exact h'
  | next hbody _ ih => exact .next hbody (ih h' hstop)
  | failed _ => cases hstop
  | brokeOff _ => cases hstop

/-- What comes after the leaf that has not succeeded is not come to. -/
theorem Course.append_left (h : Course ls m ran flags stop last) (hstop : stop ≠ .ok ()) (ls' : List (Leaf μ)) :
    Course (ls ++ ls') m ran flags stop last := by
  induction h with
  | done => exact absurd rfl hstop
  | next hbody _ ih => exact .next hbody (ih hstop)
  | failed hbody => exact .failed hbody
  | brokeOff hbody => exact .brokeOff hbody

/-- Where leaves stand makes no difference to them. -/
theorem Course.map {f : Leaf μ → Leaf μ} (hf : ∀ l, (f l).body = l.body) (h : Course ls m ran flags stop last) :
    Course (ls.map f) m (ran.map f) flags (stop.map f) last := by
  induction h with
  | done => exact .done
  | next hbody _ ih => exact .next ((congrFun (hf _) _).trans hbody) ih
  | failed hbody => exact .failed ((congrFun (hf _) _).trans hbody)
  | brokeOff hbody => exact .brokeOff ((congrFun (hf _) _).trans hbody)

theorem Course.ran_prefix (h : Course ls m ran flags stop last) : ran <+: ls := by
  induction h with
  | done => exact List.prefix_rfl
  | next _ _ ih => exact (List.prefix_cons_inj _).mpr ih
  | failed _ => exact (List.prefix_cons_inj _).mpr List.nil_prefix
  | brokeOff _ => exact (List.prefix_cons_inj _).mpr List.nil_prefix

theorem Course.ran_eq (h : Course ls m ran flags (.ok ()) last) : ran = ls := by
  generalize hstop : (.ok () : Stop μ) = stopped at h
  induction h with
  | done => rfl
  | next _ _ ih => rw [ih hstop]
  | failed _ => cases hstop
  | brokeOff _ => cases hstop

theorem Course.mem_of_failed {l : Leaf μ} {e : ErrorChain} (h : Course ls m ran flags (.error (l, e)) last) : l ∈ ls := by
  generalize hstop : (.error (l, e) : Stop μ) = stopped at h
  induction h with
  | done => cases hstop
  | next _ _ ih => exact List.mem_cons_of_mem _ (ih hstop)
  | failed _ =>
    cases hstop
    exact List.mem_cons_self
  | brokeOff _ => cases hstop

/-- A course that does not succeed stops at a leaf that does not, and all leaves before this one succeed. -/
theorem Course.stopped (h : Course ls m ran flags stop last) (hstop : stop ≠ .ok ()) :
    ∃ before l after at', ls = before ++ l :: after ∧ Course before m before flags (.ok ()) at' ∧
      ((∃ e, stop = .error (l, e) ∧ l.body at' = (last, .error e)) ∨ stop = .panic ∧ l.body at' = (last, .panic)) := by
  induction h with
  | done => exact absurd rfl hstop
  | next hbody _ ih =>
    obtain ⟨before, l, after, at', rfl, hbefore, hends⟩ := ih hstop
    exact ⟨_ :: before, l, after, at', rfl, .next hbody hbefore, hends⟩
  | failed hbody => exact ⟨[], _, _, _, rfl, .done, .inl ⟨_, rfl, hbody⟩⟩
  | brokeOff hbody => exact ⟨[], _, _, _, rfl, .done, .inr ⟨rfl, hbody⟩⟩

end

/-! ## Contexts -/

theorem depth_of_mem_leavesOfPasses {passes : List (Transformation μ)} {l : Leaf μ} (h : l ∈ leavesOfPasses passes) :
    ∃ outer, l.depth = outer + 1 := by
  induction passes with
  | nil => cases h
  | cons p passes ih =>
    rcases List.mem_append.mp h with h | h
    · obtain ⟨inner, -, rfl⟩ := List.mem_map.mp h
      exact ⟨inner.depth, rfl⟩
    · exact ih h

theorem raised_deeper {t : Transformation μ} {l : Leaf μ} (h : l ∈ t.leaves) (e : ErrorChain) :
    l.deeper.raised e = (l.raised e).within (context t.name) := by
  -- The pipeline names what has failed in it: the leaf itself, or the pipeline that the leaf stands in.
  cases t with
  | pass name body =>
    cases List.mem_singleton.mp h
    rfl
  | pipeline passes =>
    obtain ⟨outer, hdepth⟩ := depth_of_mem_leavesOfPasses h
    simp only [Leaf.raised, Leaf.contexts, Leaf.deeper, hdepth]
    rfl

/-! ## Runs -/

def Follows (r : TransformationRun μ) (earlier : List Bool) (ls : List (Leaf μ)) (m : μ) : Prop :=
  ∃ ran flags stop, Course ls m ran flags stop r.model ∧ r.ending = answered (earlier ++ flags) stop ∧
    r.calls = ran.map Leaf.name

theorem follows_pass (name : String) (body : PassBody μ) (m : μ) :
    Follows ((Transformation.pass name body).run m) [] (Transformation.pass name body).leaves m := by
  simp only [run, leaves]
  cases hbody : body m with
  | mk next ending =>
    cases ending with
    | ok changed => exact ⟨[⟨0, name, body⟩], [changed], .ok (), .next hbody .done, by simp [answered], rfl⟩
    | error e => exact ⟨[⟨0, name, body⟩], [], .error (⟨0, name, body⟩, e), .failed hbody, rfl, rfl⟩
    | panic => exact ⟨[⟨0, name, body⟩], [], .panic, .brokeOff hbody, rfl, rfl⟩

theorem map_name_deeper (ran : List (Leaf μ)) : (ran.map Leaf.deeper).map Leaf.name = ran.map Leaf.name := by
  rw [List.map_map]
  rfl

/-- The first of the passes, and then the others, if it succeeds. -/
theorem follows_cons {p : Transformation μ} {passes : List (Transformation μ)} {m : μ} {earlier : Bool}
    (hfirst : Follows (p.run m) [] p.leaves m)
    (hrest : ∀ changed m', Follows (runPasses passes changed m') [changed] (leavesOfPasses passes) m') :
    Follows (runPasses (p :: passes) earlier m) [earlier] (leavesOfPasses (p :: passes)) m := by
  obtain ⟨ran, flags, stop, hcourse, hending, hcalls⟩ := hfirst
  have hdeeper := hcourse.map (f := Leaf.deeper) fun _ => rfl
  simp only [runPasses, leavesOfPasses]
  generalize p.run m = first at hcourse hending hcalls hdeeper
  obtain ⟨next, ending, calls, notices⟩ := first
  simp only [List.nil_append] at hending hcalls
  subst hending hcalls
  cases stop with
  | ok value =>
    obtain ⟨ran', flags', stop', hcourse', hending', hcalls'⟩ := hrest (earlier || flags.any id) next
    refine ⟨_, _, stop', hdeeper.append hcourse', ?_, ?_⟩
    · simp only [answered, hending']
      cases stop' <;> simp [Bool.or_assoc]
    · simp only [answered, hcalls', List.map_append, map_name_deeper]
  | error failure =>
    refine ⟨_, flags, _, hdeeper.append_left nofun _, ?_, (map_name_deeper ran).symm⟩
    exact (congrArg Outcome.error (raised_deeper hcourse.mem_of_failed failure.2)).symm
  | panic => exact ⟨_, flags, _, hdeeper.append_left nofun _, rfl, (map_name_deeper ran).symm⟩

mutual

theorem run_follows : ∀ (t : Transformation μ) (m : μ), Follows (t.run m) [] t.leaves m
  | .pass name body, m => follows_pass name body m
  | .pipeline passes, m => by
    obtain ⟨ran, flags, stop, hcourse, hending, hcalls⟩ := runPasses_follows passes false m
    refine ⟨ran, flags, stop, hcourse, ?_, hcalls⟩
    cases stop <;> exact hending

theorem runPasses_follows : ∀ (passes : List (Transformation μ)) (earlier : Bool) (m : μ),
    Follows (runPasses passes earlier m) [earlier] (leavesOfPasses passes) m
  | [], earlier, m => ⟨[], [], .ok (), .done, by simp [runPasses, answered], rfl⟩
  | p :: passes, earlier, m => follows_cons (run_follows p m) (runPasses_follows passes)

end

end Transformation

end DevicePlugin
