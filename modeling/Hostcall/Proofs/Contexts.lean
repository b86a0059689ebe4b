import Hostcall.Proofs.Traps

/-!
# What contexts leave of an error

An error is passed upwards, and on the way texts are laid around it.  They change what is shown of
it, and not what it is.

* `Layers` is an error as it is put together, with the readings that go through it from the outside
  in: `Layers.search?` looks for a cause of one sort, `Layers.texts` and `Layers.line` tell what is
  met;
* `Report.ReadsAs` ties a report to its layers, and a context keeps them tied;
* `Origin` is where an error comes from, and `Origin.answer?` the error number it stands for;
* `contexts_transparent` says what is left of an error, and what is shown of it, under contexts.
-/

namespace Hostcall

/-- The error number that a cause is. -/
def Cause.errno? : Cause → Option Errno
  | .errno e => some e
  | _ => none

/-- The request to end that a cause is. -/
def Cause.exit? : Cause → Option Exit
  | .exit e => some e
  | _ => none

/-! ## Layers -/

/-- An error as it is put together: a cause, or a text around an error. -/
inductive Layers where
  | cause (c : Cause)
  | around (inner : Layers) (s : String)

namespace Layers

/-- Looks for a cause of one sort, from the outside in.  No text is of any sort. -/
def search? {α : Type} (sort : Cause → Option α) : Layers → Option α
  | .cause c => sort c
  | .around inner _ => inner.search? sort

/-- The outermost text. -/
def text : Layers → String
  | .cause c => c.message
  | .around _ s => s

/-- All texts, from the outside in. -/
def texts : Layers → List String
  | .cause c => [c.message]
  | .around inner s => s :: inner.texts

/-- All texts on one line. -/
def line : Layers → String
  | .cause c => c.message
  | .around inner s => s ++ ": " ++ inner.line

variable {α : Type}

/-- What is searched for lies below all texts, however many there are. -/
theorem search?_foldl_around (sort : Cause → Option α) (l : Layers) (added : List String) :
    (added.foldl around l).search? sort = l.search? sort := by
  induction added generalizing l with
  | nil => rfl
  | cons s added ih => exact ih (l.around s)

/-- The text that was laid around last is met first. -/
theorem texts_foldl_around (l : Layers) (added : List String) :
    (added.foldl around l).texts = added.reverse ++ l.texts := by
  induction added generalizing l with
  | nil => rfl
  | cons s added ih => rw [List.foldl_cons, ih, texts, List.reverse_cons, List.append_assoc,
      List.singleton_append]

theorem text_foldl_around (l : Layers) (added : List String) :
    (added.foldl around l).text = added.getLast?.getD l.text := by
  induction added generalizing l with
  | nil => rfl
  | cons s added ih =>
    rw [List.foldl_cons, ih, text, List.getLast?_cons]
    rfl

theorem texts_ne_nil (l : Layers) : l.texts ≠ [] := by cases l <;> exact List.cons_ne_nil _ _

theorem line_eq_intercalate (l : Layers) : l.line = ": ".intercalate l.texts := by
  induction l with
  | cause c => rw [line, texts, String.intercalate_singleton]
  | around inner s ih => rw [line, texts, ih, String.intercalate_cons_of_ne_nil inner.texts_ne_nil]

end Layers

/-! ## Reports and their layers -/

namespace Report

/-- The layers of a report, its first context outermost. -/
def layers (r : Report) : Layers := r.contexts.foldr (fun s l => l.around s) (.cause r.cause)

/-- A report that reads as some layers do, whatever is read of it. -/
structure ReadsAs (r : Report) (l : Layers) : Prop where
  errno? : r.errno? = l.search? Cause.errno?
  exit? : r.exit? = l.search? Cause.exit?
  message : r.message = l.text
  chain : r.chain = l.texts
  alternate : r.alternate = l.line

variable {r : Report} {l : Layers}

theorem ReadsAs.ofCause (c : Cause) : (ofCause c).ReadsAs (.cause c) where
  errno? := by cases c <;> rfl
  exit? := by cases c <;> rfl
  message := rfl
  chain := rfl
  alternate := String.intercalate_singleton

/-- A context is one layer more. -/
theorem ReadsAs.context (h : r.ReadsAs l) (s : String) : (r.context s).ReadsAs (l.around s) where
  errno? := h.errno?
  exit? := h.exit?
  message := rfl
  chain := congrArg (s :: ·) h.chain
  alternate := by
    have hchain : (r.context s).chain = (l.around s).texts := congrArg (s :: ·) h.chain
    rw [Layers.line_eq_intercalate, ← hchain]
    rfl

theorem ReadsAs.foldl_context (h : r.ReadsAs l) (added : List String) :
    (added.foldl Report.context r).ReadsAs (added.foldl Layers.around l) := by
  induction added generalizing r l with
  | nil => exact h
  | cons s added ih => exact ih (h.context s)

/-- Every report reads as its layers do. -/
theorem readsAs_layers (r : Report) : r.ReadsAs r.layers := by
  obtain ⟨contexts, cause⟩ := r
  induction contexts with
  | nil => exact .ofCause cause
  | cons s contexts ih => exact ih.context s

/-- A report that shows some texts, the last one outermost, and below them what another one
shows. -/
structure ShowsUnder (r : Report) (added : List String) (plain : Report) : Prop where
  message : r.message = added.getLast?.getD plain.message
  chain : r.chain = added.reverse ++ plain.chain
  alternate : r.alternate = ": ".intercalate (added.reverse ++ plain.chain)

theorem showsUnder_foldl_context (plain : Report) (added : List String) :
    (added.foldl Report.context plain).ShowsUnder added plain := by
  have hplain := plain.readsAs_layers
  have hreads := hplain.foldl_context added
  have hchain : (added.foldl Report.context plain).chain = added.reverse ++ plain.chain := by
    rw [hreads.chain, Layers.texts_foldl_around, hplain.chain]
  refine ⟨?_, hchain, congrArg ": ".intercalate hchain⟩
  rw [hreads.message, Layers.text_foldl_around, hplain.message]

theorem errno?_foldl_context (plain : Report) (added : List String) :
    (added.foldl Report.context plain).errno? = plain.errno? := by
  rw [(plain.readsAs_layers.foldl_context added).errno?, Layers.search?_foldl_around,
    plain.readsAs_layers.errno?]

theorem exit?_foldl_context (plain : Report) (added : List String) :
    (added.foldl Report.context plain).exit? = plain.exit? := by
  rw [(plain.readsAs_layers.foldl_context added).exit?, Layers.search?_foldl_around,
    plain.readsAs_layers.exit?]

end Report

/-- The status of a run that failed is that of the request to end which is found in the failure, or
else that of an abort. -/
theorem exitStatus_error (r : Report) :
    exitStatus (.error r) = (r.layers.search? Cause.exit?).elim 134 Exit.status := by
  rw [exitStatus, r.readsAs_layers.exit?]
  cases r.layers.search? Cause.exit? <;> rfl

/-! ## Where errors come from -/

/-- A fault that is to a caller what another one is: the same error number, or a trap too, which is
given back as it stands. -/
structure Fault.AnswersAs (f plain : Fault) : Prop where
  errno? : f.errno? = plain.errno?
  isTrap : f.isTrap = plain.isTrap
  downcast : f.downcast = plain.downcast.map id fun _ => f.report

theorem Fault.AnswersAs.of_errno? {f plain : Fault} (h : f.errno? = plain.errno?) :
    f.AnswersAs plain where
  errno? := h
  isTrap := by rw [Fault.isTrap, h, ← Fault.isTrap]
  downcast := by
    rw [Fault.downcast, Fault.downcast, h]
    cases plain.errno? <;> rfl

namespace HostError

/-- The code of a failure, if it has one. -/
def code? : HostError → Option Int
  | .code n => some n
  | .kind _ _ => none

/-- The kind of a failure.  One with a code has the kind that the host's library gives to the
code. -/
def failureKind (kindOf : Int → FailureKind) : HostError → FailureKind
  | .code n => kindOf n
  | .kind k _ => k

end HostError

/-- Where an error comes from. -/
inductive Origin where
  /-- An error number. -/
  | errno (e : Errno)
  /-- A number that does not fit its width. -/
  | overflow
  /-- Bytes that are no text. -/
  | notText
  /-- A failure of the host. -/
  | host (e : HostError)
  /-- A text that is raised as a trap. -/
  | text (s : String)

namespace Origin

/-- The fault that is raised. -/
def fault : Origin → Fault
  | .errno e => .ofErrno e
  | .overflow => .overflow
  | .notText => .notText
  | .host e => .ofHost e
  | .text s => .trapText s

/-- The error number that an origin stands for.  A failure of the host is told by its code, if it
has one, and only else by its kind. -/
def answer? (kindOf : Int → FailureKind) : Origin → Option Errno
  | .errno e => some e
  | .overflow => some .overflow
  | .notText => some .illegalByteSequence
  | .host e =>
    match e.code? with
    | some n => HostError.codes.lookup n
    | none => (e.failureKind kindOf).errno?
  | .text _ => none

theorem errno?_fault (kindOf : Int → FailureKind) (o : Origin) :
    o.fault.errno? = o.answer? kindOf := by
  cases o with
  | errno | overflow | notText | text => rfl
  | host e =>
    rw [fault, Fault.errno?_ofHost]
    cases e <;> rfl

/-- No request to end is found in a fault. -/
theorem exit?_fault (o : Origin) : o.fault.report.exit? = none := by
  cases o with
  | errno | overflow | notText | text => rfl
  | host e =>
    show (Fault.ofHost e).report.exit? = none
    unfold Fault.ofHost
    cases e.errno? with
    | some => rfl
    | none => cases e <;> rfl

end Origin

/-- Whatever contexts are added to a fault, and to its report after it was turned back, it stays
what it is to a caller, raised again or not, and to the host when the run ends.  What is shown of it
are the contexts, the last one outermost, and below them what was shown of it before; and a search
through all the layers finds the same in it.  Where a fault comes from says which error number it is,
a failure of the host by its code whatever its kind, and by its kind if it has no code.  A run
ends with the status of the request to end that is found in its failure, and aborts if there is
none. -/
theorem contexts_transparent (plain : Fault) (texts more : List String) :
    let f := texts.foldl Fault.context plain
    let r := more.foldl Report.context f.report
    f.AnswersAs plain ∧ (Fault.trap r).AnswersAs plain ∧
    f.report.ShowsUnder texts plain.report ∧ r.ShowsUnder (texts ++ more) plain.report ∧
    r.ReadsAs ((texts ++ more).foldl Layers.around plain.report.layers) ∧
    exitStatus (.error r) = exitStatus (.error plain.report) ∧
    (∀ e, exitStatus (.error ((texts ++ more).foldl Report.context (.ofCause (.exit e)))) =
      e.status) ∧
    (∀ r, exitStatus (.error r) = (r.layers.search? Cause.exit?).elim 134 Exit.status) ∧
    ∀ kindOf (o : Origin), o.fault.errno? = o.answer? kindOf ∧
      exitStatus (.error o.fault.report) = 134 := by
  intro f r
  have hf : f.report = texts.foldl Report.context plain.report :=
    plain.report_foldl_context texts
  have hr : r = (texts ++ more).foldl Report.context plain.report := by
    rw [List.foldl_append, ← hf]
  have hexit (e : Exit) (added : List String) :
      exitStatus (.error (added.foldl Report.context (.ofCause (.exit e)))) = e.status := by
    rw [exitStatus, Report.exit?_foldl_context]
    rfl
  refine ⟨.of_errno? ?_, .of_errno? ?_, ?_, ?_, ?_, ?_, fun e => hexit e _, exitStatus_error,
    fun kindOf o => ⟨o.errno?_fault kindOf, ?_⟩⟩
  · rw [Fault.errno?, hf]
    exact plain.report.errno?_foldl_context texts
  · show r.errno? = plain.report.errno?
    rw [hr]
    exact plain.report.errno?_foldl_context _
  · rw [hf]
    exact plain.report.showsUnder_foldl_context texts
  · rw [hr]
    exact plain.report.showsUnder_foldl_context _
  · rw [hr]
    exact plain.report.readsAs_layers.foldl_context _
  · rw [exitStatus, exitStatus, hr, Report.exit?_foldl_context]
  · rw [exitStatus, o.exit?_fault]

/-- A refused permission is told by its code, though its kind alone would say that a path led out of
its sandbox. -/
example (kindOf : Int → FailureKind) : (Origin.host (.code 13)).answer? kindOf =
    some .permissionDenied ∧ FailureKind.permissionDenied.errno? = some .notCapable :=
  ⟨rfl, rfl⟩

end Hostcall
