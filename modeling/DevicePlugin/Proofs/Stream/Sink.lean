import DevicePlugin.Compiled.Model
import DevicePlugin.Proofs.Stream.Sequence

/-!
# Sinks that fail

Writing is a course of calls. Each offers what is left of a segment, and the first
one that takes nothing or fails is the last. So a sink has always taken the bytes
up to some point and none behind it.
-/

namespace DevicePlugin

namespace Stream

/-! ## Calls -/

inductive Answer where
  | interrupted
  | took (count : Nat)
  | failed (fault : Fault)

def Answer.fault : Answer → Option Fault
  | .interrupted => none
  | .took 0 => some .writeZero
  | .took (_ + 1) => none
  | .failed fault => some fault

structure Call where
  offered : Bytes
  answer : Answer

namespace Behaviour

def answer (b : Behaviour) (c : Cursor) (offered : Bytes) : Answer × Cursor :=
  match b.attempt c with
  | (none, c) => (.interrupted, c)
  | (some (.move limit), c) =>
    (.took (min limit offered.length), { c with position := c.position + min limit offered.length })
  | (some (.fail fault), c) => (.failed fault, c)

def Answers (b : Behaviour) : Cursor → List Call → Cursor → Prop
  | c, [], last => last = c
  | c, call :: calls, last =>
    call.answer = (b.answer c call.offered).1 ∧ Answers b (b.answer c call.offered).2 calls last

end Behaviour

/-- The calls in which segments are offered to a sink one after another, the bytes that it takes, and why it
takes no more. -/
inductive Course : List Bytes → List Call → Bytes → Option Fault → Prop
  | done : Course [] [] [] none
  | next {segments : List Bytes} {calls : List Call} {taken : Bytes} {fault : Option Fault}
      (rest : Course segments calls taken fault) : Course ([] :: segments) calls taken fault
  | again {bytes : Bytes} {segments : List Bytes} {calls : List Call} {taken : Bytes} {fault : Option Fault}
      (hbytes : bytes ≠ []) (rest : Course (bytes :: segments) calls taken fault) :
      Course (bytes :: segments) (⟨bytes, .interrupted⟩ :: calls) taken fault
  | took {first bytes : Bytes} {segments : List Bytes} {calls : List Call} {taken : Bytes} {fault : Option Fault}
      (hfirst : first ≠ []) (rest : Course (bytes :: segments) calls taken fault) :
      Course ((first ++ bytes) :: segments) (⟨first ++ bytes, .took first.length⟩ :: calls) (first ++ taken) fault
  | last {bytes : Bytes} {answer : Answer} {fault : Fault} (segments : List Bytes)
      (hbytes : bytes ≠ []) (h : answer.fault = some fault) :
      Course (bytes :: segments) [⟨bytes, answer⟩] [] (some fault)

theorem Answer.fault_took {first : Bytes} (h : first ≠ []) : (took first.length).fault = none := by
  cases first with
  | nil => exact absurd rfl h
  | cons => rfl

namespace Course

variable {segments : List Bytes} {calls : List Call} {taken : Bytes} {fault : Option Fault}

theorem isPrefix (h : Course segments calls taken fault) : taken <+: segments.flatten := by
  induction h with
  | done => exact List.nil_prefix
  | next _ ih => exact ih
  | again _ _ ih => exact ih
  | took _ _ ih =>
    rw [List.flatten_cons, List.append_assoc, List.prefix_append_right_inj]
    exact ih
  | last => exact List.nil_prefix

/-- Nothing is left if there is no fault, and with a fault something is. -/
theorem fault_eq_none_iff (h : Course segments calls taken fault) :
    fault = none ↔ taken = segments.flatten := by
  induction h with
  | done => exact iff_of_true rfl rfl
  | next _ ih => exact ih
  | again _ _ ih => exact ih
  | took _ _ ih =>
    rw [ih, List.flatten_cons, List.flatten_cons, List.append_assoc]
    exact (List.append_right_inj _).symm
  | last _ hbytes =>
    refine iff_of_false (by simp) fun hnil => hbytes ?_
    rw [List.flatten_cons] at hnil
    exact (List.append_eq_nil_iff.mp hnil.symm).1

theorem offered_ne_nil (h : Course segments calls taken fault) : ∀ call ∈ calls, call.offered ≠ [] := by
  induction h with
  | done => exact fun _ hcall => nomatch hcall
  | next _ ih => exact ih
  | again hbytes _ ih => exact List.forall_mem_cons.mpr ⟨hbytes, ih⟩
  | took hfirst _ ih =>
    exact List.forall_mem_cons.mpr ⟨fun hnil => hfirst (List.append_eq_nil_iff.mp hnil).1, ih⟩
  | last _ hbytes => exact List.forall_mem_singleton.mpr hbytes

inductive Concludes : List Call → Option Fault → Prop
  | well {calls : List Call} (h : ∀ call ∈ calls, call.answer.fault = none) : Concludes calls none
  | badly {earlier : List Call} {last : Call} {fault : Fault} (h : ∀ call ∈ earlier, call.answer.fault = none)
      (hlast : last.answer.fault = some fault) : Concludes (earlier ++ [last]) (some fault)

theorem Concludes.cons {call : Call} (hcall : call.answer.fault = none) (h : Concludes calls fault) :
    Concludes (call :: calls) fault := by
  cases h with
  | well h => exact .well (List.forall_mem_cons.mpr ⟨hcall, h⟩)
  | badly h hlast => exact .badly (List.forall_mem_cons.mpr ⟨hcall, h⟩) hlast

theorem concludes (h : Course segments calls taken fault) : Concludes calls fault := by
  induction h with
  | done => exact .well fun _ hcall => nomatch hcall
  | next _ ih => exact ih
  | again _ _ ih => exact ih.cons rfl
  | took hfirst _ ih => exact ih.cons (Answer.fault_took hfirst)
  | last _ _ h => exact @Concludes.badly [] ⟨_, _⟩ _ (fun _ hcall => nomatch hcall) h

end Course

/-! ## Writing in calls -/

def Written.prepend (first : Bytes) (w : Written) : Written := { w with taken := first ++ w.taken }

/-- What writing comes to after a call, given what it comes to for the bytes that are left then. -/
def Answer.resume (answer : Answer) (offered : Bytes) (c : Cursor) (write : Bytes → Written) : Written :=
  match answer with
  | .interrupted => write offered
  | .took 0 => ⟨[], c, some .writeZero⟩
  | .took (count + 1) => (write (offered.drop (count + 1))).prepend (offered.take (count + 1))
  | .failed fault => ⟨[], c, some fault⟩

theorem Answer.resume_took {first : Bytes} (h : first ≠ []) (rest : Bytes) (c : Cursor) (write : Bytes → Written) :
    (took first.length).resume (first ++ rest) c write = (write rest).prepend first := by
  cases first with
  | nil => exact absurd rfl h
  | cons x xs => simp [resume]

namespace Behaviour

variable (b : Behaviour)

/-- What a call still takes, it takes without being made again. -/
theorem write_budget : ∀ (first rest : Bytes) (budget : Nat) (c : Cursor),
    first.length ≤ budget → first.length = budget ∨ rest = [] →
      b.write budget c (first ++ rest) =
        (b.write 0 { c with position := c.position + first.length } rest).prepend first
  | [], rest, budget, c, _, hbudget => by
    rcases hbudget with rfl | rfl
    · rfl
    · cases budget <;> rfl
  | x :: xs, rest, budget + 1, c, hle, hbudget => by
    have hrest := write_budget xs rest budget c.advance (Nat.le_of_succ_le_succ hle)
      (hbudget.imp_left Nat.succ.inj)
    rw [c.advance_add] at hrest
    simp only [List.cons_append, write, hrest]
    rfl

theorem write_eq (c : Cursor) {bytes : Bytes} (hbytes : bytes ≠ []) :
    b.write 0 c bytes =
      (b.answer c bytes).1.resume bytes (b.answer c bytes).2 (b.write 0 (b.answer c bytes).2) := by
  cases bytes with
  | nil => exact absurd rfl hbytes
  | cons x xs =>
    conv_lhs => rw [write, call_eq_attempt]
    unfold answer
    obtain ⟨attempted, c'⟩ := b.attempt c
    rcases attempted with _ | (_ | limit) | fault
    case some.move.succ =>
      have hcount : min (limit + 1) (x :: xs).length = min limit xs.length + 1 := Nat.succ_min_succ _ _
      have hfirst : (xs.take (min limit xs.length)).length = min limit xs.length := by
        rw [List.length_take, Nat.min_eq_left (Nat.min_le_right _ _)]
      have hbudget := write_budget b (xs.take (min limit xs.length)) (xs.drop (min limit xs.length)) limit c'.advance
        (by omega) (by rw [List.drop_eq_nil_iff]; omega)
      rw [List.take_append_drop, c'.advance_add, hfirst] at hbudget
      simp only [hcount, hbudget]
      rfl
    all_goals rfl

theorem writeEach_nil (c : Cursor) (segments : List Bytes) :
    b.writeEach c ([] :: segments) = b.writeEach c segments := by
  simp only [writeEach, write, List.nil_append]

theorem writeEach_eq (c : Cursor) {bytes : Bytes} (hbytes : bytes ≠ []) (segments : List Bytes) :
    b.writeEach c (bytes :: segments) =
      (b.answer c bytes).1.resume bytes (b.answer c bytes).2
        fun left => b.writeEach (b.answer c bytes).2 (left :: segments) := by
  conv_lhs => rw [writeEach, write_eq b c hbytes]
  obtain ⟨answer, c'⟩ := b.answer c bytes
  rcases answer with _ | (_ | count) | fault
  case took.succ =>
    simp only [Answer.resume, writeEach, Written.prepend]
    obtain ⟨taken, cursor, fault⟩ := b.write 0 c' (bytes.drop (count + 1))
    cases fault with
    | some fault => rfl
    | none => simp only [List.append_assoc]
  all_goals rfl

theorem attempt_cases (c : Cursor) :
    (∃ due later, c.interrupts = due :: later ∧ b.attempt c = (none, { c with interrupts := later })) ∨
      b.attempt c = (some (b c.position), c) := by
  obtain ⟨position, interrupts⟩ := c
  cases interrupts with
  | nil => exact .inr rfl
  | cons due later =>
    by_cases hdue : due ≤ position
    · exact .inl ⟨due, later, rfl, if_pos hdue⟩
    · exact .inr (if_neg hdue)

section
variable {b} {c c' : Cursor} {offered : Bytes}

theorem cursor_of_interrupted (h : b.answer c offered = (.interrupted, c')) :
    c'.interrupts.length < c.interrupts.length ∧ c'.position = c.position := by
  rcases b.attempt_cases c with ⟨due, later, hinterrupts, hattempt⟩ | hattempt
  · rw [answer, hattempt] at h
    cases h
    rw [hinterrupts]
    exact ⟨Nat.lt_succ_self _, rfl⟩
  · rw [answer, hattempt] at h
    cases hb : b c.position <;> rw [hb] at h <;> cases h

theorem cursor_of_took {count : Nat} (h : b.answer c offered = (.took count, c')) :
    count ≤ offered.length ∧ c' = { c with position := c.position + count } := by
  rcases b.attempt_cases c with ⟨due, later, -, hattempt⟩ | hattempt
  · rw [answer, hattempt] at h
    cases h
  · rw [answer, hattempt] at h
    cases hb : b c.position <;> rw [hb] at h <;> cases h
    exact ⟨Nat.min_le_right _ _, rfl⟩

end

/-- Writing is a course of calls that the sink answers. -/
theorem exists_course : ∀ (segments : List Bytes) (c : Cursor),
    ∃ calls, b.Answers c calls (b.writeEach c segments).cursor ∧
      Course segments calls (b.writeEach c segments).taken (b.writeEach c segments).fault
  | [], c => ⟨[], rfl, .done⟩
  | [] :: segments, c => by
    obtain ⟨calls, hanswers, hcourse⟩ := exists_course segments c
    rw [writeEach_nil]
    exact ⟨calls, hanswers, .next hcourse⟩
  | (x :: xs) :: segments, c => by
    have hbytes : x :: xs ≠ [] := List.cons_ne_nil x xs
    rw [writeEach_eq b c hbytes]
    match h : b.answer c (x :: xs) with
    | (.interrupted, c') =>
      have hless := (cursor_of_interrupted h).1
      obtain ⟨calls, hanswers, hcourse⟩ := exists_course ((x :: xs) :: segments) c'
      refine ⟨⟨x :: xs, .interrupted⟩ :: calls, ⟨by rw [h], ?_⟩, .again hbytes hcourse⟩
      rw [h]
      exact hanswers
    | (.took 0, c') => exact ⟨[⟨x :: xs, .took 0⟩], ⟨by rw [h], by rw [h]; rfl⟩, .last segments hbytes rfl⟩
    | (.took (count + 1), c') =>
      obtain ⟨hcount, hcursor⟩ := cursor_of_took h
      obtain ⟨calls, hanswers, hcourse⟩ := exists_course ((x :: xs).drop (count + 1) :: segments) c'
      refine ⟨⟨x :: xs, .took (count + 1)⟩ :: calls, ⟨by rw [h], by rw [h]; exact hanswers⟩, ?_⟩
      have hfirst : (x :: xs).take (count + 1) ≠ [] := by simp
      have htook := Course.took hfirst hcourse
      rw [List.take_append_drop, List.length_take, Nat.min_eq_left hcount] at htook
      exact htook
    | (.failed fault, c') =>
      exact ⟨[⟨x :: xs, .failed fault⟩], ⟨by rw [h], by rw [h]; rfl⟩, .last segments hbytes rfl⟩
-- A call gets on with the bytes or uses up an interrupt.
termination_by segments c => segments.flatten.length + segments.length + c.interrupts.length
decreasing_by
  all_goals simp only [List.flatten_cons, List.length_append, List.length_cons, List.length_nil, List.length_drop]
  · omega
  · omega
  · simp only [hcursor]
    omega

/-! ## Sinks of a course -/

theorem answer_congr {b b' : Behaviour} {c : Cursor} (h : b c.position = b' c.position) (offered : Bytes) :
    b.answer c offered = b'.answer c offered := by
  unfold answer attempt
  rw [h]

/-- A call is made where a byte is still to come, so a sink is never asked behind the last one. -/
theorem Answers.congr {b b' : Behaviour} {last : Cursor} {segments : List Bytes} {calls : List Call} {taken : Bytes}
    {fault : Option Fault} (h : Course segments calls taken fault) {c : Cursor}
    (hb : ∀ q, c.position ≤ q → q < c.position + segments.flatten.length → b q = b' q)
    (hanswers : b.Answers c calls last) : b'.Answers c calls last := by
  have hsame {bytes : Bytes} {segments : List Bytes} {c : Cursor} (hbytes : bytes ≠ [])
      (hb : ∀ q, c.position ≤ q → q < c.position + (bytes :: segments).flatten.length → b q = b' q) :
      b.answer c bytes = b'.answer c bytes := by
    refine answer_congr (hb _ (Nat.le_refl _) ?_) bytes
    have hpos := List.length_pos_iff.mpr hbytes
    rw [List.flatten_cons, List.length_append]
    omega
  induction h generalizing c with
  | done => exact hanswers
  | next _ ih => exact ih hb hanswers
  | @again bytes _ _ _ _ hbytes _ ih =>
    obtain ⟨hanswer, hrest⟩ := hanswers
    refine ⟨hsame hbytes hb ▸ hanswer, ?_⟩
    rw [← hsame hbytes hb]
    refine ih ?_ hrest
    rwa [(cursor_of_interrupted (Prod.ext hanswer.symm rfl)).2]
  | @took first bytes _ _ _ _ hfirst _ ih =>
    obtain ⟨hanswer, hrest⟩ := hanswers
    have hbytes := List.append_ne_nil_of_left_ne_nil hfirst bytes
    refine ⟨hsame hbytes hb ▸ hanswer, ?_⟩
    rw [← hsame hbytes hb]
    have hcursor : (b.answer c (first ++ bytes)).2 = { c with position := c.position + first.length } :=
      (cursor_of_took (Prod.ext hanswer.symm rfl)).2
    rw [hcursor] at hrest ⊢
    refine ih (fun q hq hlt => hb q (Nat.le_of_add_right_le hq) ?_) hrest
    simp only [List.flatten_cons, List.length_append] at hlt ⊢
    omega
  | last segments hbytes h =>
    obtain ⟨hanswer, hrest⟩ := hanswers
    exact ⟨hsame hbytes hb ▸ hanswer, by rwa [← hsame hbytes hb]⟩

theorem answer_of_free {b : Behaviour} {position : Nat} {interrupts : List Nat}
    (h : ∀ due ∈ interrupts, position < due) (offered : Bytes) :
    b.answer ⟨position, interrupts⟩ offered =
      match b position with
      | .move limit => (.took (min limit offered.length), ⟨position + min limit offered.length, interrupts⟩)
      | .fail fault => (.failed fault, ⟨position, interrupts⟩) := by
  have hattempt : b.attempt ⟨position, interrupts⟩ = (some (b position), ⟨position, interrupts⟩) := by
    cases interrupts with
    | nil => rfl
    | cons due later => exact if_neg (Nat.not_le_of_lt (h due List.mem_cons_self))
  rw [answer, hattempt]
  cases b position <;> rfl

theorem answer_of_due (b : Behaviour) (position : Nat) (later : List Nat) (offered : Bytes) :
    b.answer ⟨position, position :: later⟩ offered = (.interrupted, ⟨position, later⟩) := by
  simp only [answer, attempt, Nat.le_refl, if_true]

/-- Whatever a sink goes by, the answers it gives in a course are those of some sink that goes by how many
bytes it has taken. -/
theorem exists_answers {segments : List Bytes} {calls : List Call} {taken : Bytes} {fault : Option Fault}
    (h : Course segments calls taken fault) (position : Nat) :
    ∃ (b : Behaviour) (interrupts : List Nat) (last : Cursor),
      (∀ due ∈ interrupts, position ≤ due) ∧ b.Answers ⟨position, interrupts⟩ calls last := by
  induction h generalizing position with
  | done => exact ⟨fun _ => .move 0, [], _, List.forall_mem_nil _, rfl⟩
  | next _ ih => exact ih position
  | again _ _ ih =>
    obtain ⟨b, interrupts, last, hinterrupts, hanswers⟩ := ih position
    refine ⟨b, position :: interrupts, last, List.forall_mem_cons.mpr ⟨Nat.le_refl _, hinterrupts⟩, ?_⟩
    rw [Answers, answer_of_due]
    exact ⟨rfl, hanswers⟩
  | @took first bytes _ _ _ _ hfirst hrest ih =>
    obtain ⟨b, interrupts, last, hinterrupts, hanswers⟩ := ih (position + first.length)
    have hpos : 0 < first.length := List.length_pos_iff.mpr hfirst
    have hfree (due : Nat) (hdue : due ∈ interrupts) : position < due :=
      Nat.lt_of_lt_of_le (Nat.lt_add_of_pos_right hpos) (hinterrupts due hdue)
    -- The calls that follow are made further on, so they do not notice what is answered here.
    let b' : Behaviour := fun q => if q = position then .move first.length else b q
    have hlimit : min first.length (first ++ bytes).length = first.length := by simp
    refine ⟨b', interrupts, last, fun due hdue => Nat.le_of_lt (hfree due hdue), ?_⟩
    rw [Answers, answer_of_free hfree]
    simp only [b', if_true, hlimit, true_and]
    exact hanswers.congr hrest fun q hq _ => (if_neg (by simp only at hq; omega)).symm
  | @last _ answer _ _ _ h =>
    cases answer with
    | interrupted => cases h
    | took count =>
      cases count with
      | zero =>
        exact ⟨fun _ => .move 0, [], ⟨position, []⟩, List.forall_mem_nil _, by simp [Answers, answer, attempt]⟩
      | succ => cases h
    | failed fault => exact ⟨fun _ => .fail fault, [], ⟨position, []⟩, List.forall_mem_nil _, rfl, rfl⟩

end Behaviour

/-- A course is what writing does on any sink that gives its answers. -/
theorem Course.writeEach_eq {segments : List Bytes} {calls : List Call} {taken : Bytes} {fault : Option Fault}
    (h : Course segments calls taken fault) {b : Behaviour} {c last : Cursor} (hanswers : b.Answers c calls last) :
    b.writeEach c segments = ⟨taken, last, fault⟩ := by
  induction h generalizing c with
  | done =>
    cases hanswers
    rfl
  | next _ ih => rw [b.writeEach_nil, ih hanswers]
  | @again bytes _ _ _ _ hbytes _ ih =>
    obtain ⟨hanswer, hrest⟩ := hanswers
    rw [b.writeEach_eq c hbytes]
    dsimp only at hanswer hrest
    generalize b.answer c bytes = given at hanswer hrest ⊢
    obtain ⟨answer, c'⟩ := given
    cases hanswer
    exact ih hrest
  | @took first bytes _ _ _ _ hfirst _ ih =>
    obtain ⟨hanswer, hrest⟩ := hanswers
    rw [b.writeEach_eq c (List.append_ne_nil_of_left_ne_nil hfirst bytes)]
    dsimp only at hanswer hrest
    generalize b.answer c (first ++ bytes) = given at hanswer hrest ⊢
    obtain ⟨answer, c'⟩ := given
    cases hanswer
    rw [Answer.resume_took hfirst, ih hrest]
    rfl
  | @last bytes answer fault segments hbytes h =>
    obtain ⟨hanswer, hrest⟩ := hanswers
    rw [b.writeEach_eq c hbytes]
    dsimp only at hanswer hrest
    generalize b.answer c bytes = given at hanswer hrest ⊢
    obtain ⟨answer', c'⟩ := given
    cases hanswer
    cases hrest
    match answer', h with
    | .took 0, rfl => rfl
    | .failed fault, rfl => rfl

theorem Course.exists_sink {segments : List Bytes} {calls : List Call} {taken : Bytes} {fault : Option Fault}
    (h : Course segments calls taken fault) :
    ∃ (b : Behaviour) (c last : Cursor), b.Answers c calls last ∧
      b.writeEach c segments = ⟨taken, last, fault⟩ := by
  obtain ⟨b, interrupts, last, -, hanswers⟩ := Behaviour.exists_answers h 0
  exact ⟨b, ⟨0, interrupts⟩, last, hanswers, h.writeEach_eq hanswers⟩

theorem Behaviour.writeEach_congr {b b' : Behaviour} {c : Cursor} {segments : List Bytes}
    (hb : ∀ q, c.position ≤ q → q < c.position + segments.flatten.length → b q = b' q) :
    b'.writeEach c segments = b.writeEach c segments := by
  obtain ⟨calls, hanswers, hcourse⟩ := b.exists_course segments c
  rw [hcourse.writeEach_eq (hanswers.congr hcourse hb)]

def Written.outcome (w : Written) : Except Failure Unit :=
  match w.fault with
  | some fault => .error (.stream fault)
  | none => .ok ()

theorem Written.outcome_eq_ok_iff {w : Written} : w.outcome = .ok () ↔ w.fault = none := by
  unfold outcome
  cases w.fault with
  | none => exact iff_of_true rfl rfl
  | some fault => exact iff_of_false (fun h => nomatch h) (fun h => nomatch h)

theorem Written.of_outcome_eq_error {w : Written} {failure : Failure} (h : w.outcome = .error failure) :
    ∃ fault, w.fault = some fault ∧ failure = .stream fault := by
  unfold outcome at h
  cases hfault : w.fault <;> rw [hfault] at h <;> cases h
  exact ⟨_, rfl, rfl⟩

end Stream

theorem CompiledModel.exportTo_outcome (model : CompiledModel) (sink : Stream.Behaviour) (cursor : Stream.Cursor) :
    (model.exportTo sink cursor).1 = (model.graph.toBlob.write sink cursor).outcome := by
  simp only [exportTo, Stream.Written.outcome]
  cases (model.graph.toBlob.write sink cursor).fault <;> rfl

namespace Blob

/-- A sink has taken the first bytes of a blob, and all of them if and only if writing succeeds. It is
called only while bytes are to come, and the call that takes none or fails is the last one and the one that
is reported. -/
theorem write_to_failing_sink (b : Blob) (sink : Stream.Behaviour) (cursor : Stream.Cursor) :
    let written := b.write sink cursor
    let stop := cursor.position + b.encode.length
    written.taken <+: b.encode ∧
    (written.outcome = .ok () ↔ written.taken = b.encode) ∧
    (sink.Moves cursor.position stop → written.outcome = .ok ()) ∧
    (∀ sink' : Stream.Behaviour, (∀ q < stop, sink' q = sink q) → b.write sink' cursor = written) ∧
    ∃ calls, sink.Answers cursor calls written.cursor ∧
      Stream.Course b.segments calls written.taken written.fault ∧
      (∀ call ∈ calls, call.offered ≠ []) ∧
      (written.outcome = .ok () → ∀ call ∈ calls, call.answer.fault = none) ∧
      ∀ failure, written.outcome = .error failure →
        failure.kind = "Io" ∧
          ∃ earlier last fault, calls = earlier ++ [last] ∧ (∀ call ∈ earlier, call.answer.fault = none) ∧
            last.answer.fault = some fault ∧ failure = .stream fault := by
  intro written stop
  obtain ⟨calls, hanswers, hcourse⟩ := sink.exists_course b.segments cursor
  refine ⟨hcourse.isPrefix, ?_, ?_, ?_, calls, hanswers, hcourse, hcourse.offered_ne_nil, ?_, ?_⟩
  · rw [Stream.Written.outcome_eq_ok_iff]
    exact hcourse.fault_eq_none_iff
  · intro hmoves
    exact Stream.Written.outcome_eq_ok_iff.mpr (sink.writeEach_of_moves b.segments cursor hmoves)
  · intro sink' hsame
    exact Stream.Behaviour.writeEach_congr fun q _ hq => (hsame q hq).symm
  · intro hok
    have hconcludes : Stream.Course.Concludes calls written.fault := hcourse.concludes
    rw [Stream.Written.outcome_eq_ok_iff.mp hok] at hconcludes
    cases hconcludes with
    | well h => exact h
  · intro failure herror
    obtain ⟨fault, hfault, rfl⟩ := Stream.Written.of_outcome_eq_error herror
    have hconcludes : Stream.Course.Concludes calls written.fault := hcourse.concludes
    rw [hfault] at hconcludes
    cases hconcludes with
    | badly h hlast => exact ⟨rfl, _, _, fault, rfl, h, hlast, rfl⟩

/-- The sink takes three bytes in a call, interrupts two calls, and fails from the tenth byte on. -/
theorem write_to_failing_sink_block :
    let b : Blob := ⟨[1, 2, 3, 4, 5], [6]⟩
    let sink : Stream.Behaviour := fun q => if q < 10 then .move (min 3 (10 - q)) else .fail ⟨.timedOut, "too slow"⟩
    let written := b.write sink ⟨0, [0, 8]⟩
    written.taken = b.encode.take 10 ∧ written.outcome = .error (.stream ⟨.timedOut, "too slow"⟩) ∧
      ∃ earlier last, sink.Answers ⟨0, [0, 8]⟩ (earlier ++ [last]) written.cursor ∧
        last.answer.fault = some ⟨.timedOut, "too slow"⟩ ∧ ∀ call ∈ earlier, call.answer.fault = none := by
  intro b sink written
  have houtcome : written.outcome = .error (.stream ⟨.timedOut, "too slow"⟩) := rfl
  obtain ⟨-, -, -, -, calls, hanswers, -, -, -, herror⟩ := write_to_failing_sink b sink ⟨0, [0, 8]⟩
  obtain ⟨-, earlier, last, fault, rfl, hearlier, hlast, hfault⟩ := herror _ houtcome
  cases hfault
  exact ⟨by decide, houtcome, earlier, last, hanswers, hlast, hearlier⟩

end Blob

end DevicePlugin
