import Hostcall.Fault

/-!
# What becomes of a trap

An embedder raises any report as a trap, also one that it got by turning back a fault.  Contexts can
be added all the way.

* `Report.foldl_context` and `Fault.report_foldl_context` say what contexts do to a report;
* `Making` is how a report was made and `Raising` how a fault was raised, each out of the other, with
  the outcomes `Making.report` and `Raising.fault`, and `Making.answer?` is the error number that it
  all began with, if it began with one;
* `Making.exists_report` says that nothing else can be raised, but the report of a crash;
* `trap_goes_back` says that a trap is told to the guest exactly if it goes back to an error number,
  so that raising a report does not make it a trap.
-/

namespace Hostcall

/-! ## Contexts -/

theorem Report.foldl_context (r : Report) (texts : List String) :
    texts.foldl Report.context r = ⟨texts.reverse ++ r.contexts, r.cause⟩ := by
  induction texts generalizing r with
  | nil => rfl
  | cons s texts ih =>
    rw [List.foldl_cons, ih, List.reverse_cons, List.append_assoc]
    rfl

theorem Fault.report_foldl_context (f : Fault) (texts : List String) :
    (texts.foldl Fault.context f).report = texts.foldl Report.context f.report := by
  induction texts generalizing f with
  | nil => rfl
  | cons s texts ih => exact ih (f.context s)

/-! ## How errors are made -/

mutual

/-- How an embedder made a report: of a text, of a failure of the host, of a request to end, or of a
fault that it turned back. -/
inductive Making where
  | text (s : String)
  | host (e : HostError)
  | exit (e : Exit)
  | turnedBack (r : Raising)
  | context (m : Making) (s : String)

/-- How a fault was raised: for the guest, by classifying a failure of the host, or as a trap. -/
inductive Raising where
  | errno (e : Errno)
  | host (e : HostError)
  | trap (m : Making)
  | context (r : Raising) (s : String)

end

mutual

/-- The report that was made. -/
def Making.report : Making → Report
  | .text s => .ofCause (.text s)
  | .host e => .ofCause (.host e)
  | .exit e => .ofCause (.exit e)
  | .turnedBack r => r.fault.report
  | .context m s => m.report.context s

/-- The fault that was raised. -/
def Raising.fault : Raising → Fault
  | .errno e => .ofErrno e
  | .host e => .ofHost e
  | .trap m => .trap m.report
  | .context r s => r.fault.context s

end

mutual

/-- The error number that a report goes back to. -/
def Making.answer? : Making → Option Errno
  | .text _ => none
  | .host _ => none
  | .exit _ => none
  | .turnedBack r => r.answer?
  | .context m _ => m.answer?

/-- The error number that a fault goes back to. -/
def Raising.answer? : Raising → Option Errno
  | .errno e => some e
  | .host e => e.errno?
  | .trap m => m.answer?
  | .context r _ => r.answer?

end

theorem Fault.errno?_ofHost (e : HostError) : (ofHost e).errno? = e.errno? := by
  unfold ofHost
  cases e.errno? with
  | some => rfl
  | none => cases e <;> rfl

mutual

theorem Making.errno?_report (m : Making) : m.report.errno? = m.answer? := by
  cases m with
  | text | host | exit => rfl
  | turnedBack r => exact r.errno?_fault
  | context m s => exact m.errno?_report

theorem Raising.errno?_fault (r : Raising) : r.fault.errno? = r.answer? := by
  cases r with
  | errno => rfl
  | host e => exact Fault.errno?_ofHost e
  | trap m => exact m.errno?_report
  | context r s => exact r.errno?_fault

end

/-- Every report but that of a device which gave way is one that an embedder can make. -/
theorem Making.exists_report (r : Report) : r.cause = .crash ∨ ∃ m : Making, m.report = r := by
  obtain ⟨contexts, cause⟩ := r
  induction contexts with
  | nil =>
    cases cause with
    | errno e => exact .inr ⟨.turnedBack (.errno e), rfl⟩
    | text s => exact .inr ⟨.text s, rfl⟩
    | host e => exact .inr ⟨.host e, rfl⟩
    | exit e => exact .inr ⟨.exit e, rfl⟩
    | crash => exact .inl rfl
  | cons s contexts ih =>
    refine ih.imp id fun ⟨m, hm⟩ => ⟨.context m s, ?_⟩
    rw [report, hm]
    rfl

/-! ## Traps -/

/-- What a trap is depends on what its report goes back to, whatever contexts are added before it is
raised and after: to an error number, which is told to the guest, or to none, and then it is a trap
that is given back with all its texts. -/
theorem trap_goes_back (m : Making) (before after : List String) :
    let f := after.foldl Fault.context (.trap (before.foldl Report.context m.report))
    f.errno? = m.answer? ∧ (f.isTrap = true ↔ m.answer? = none) ∧
      f.downcast = m.answer?.elim
        (.inr ⟨after.reverse ++ (before.reverse ++ m.report.contexts), m.report.cause⟩) .inl := by
  intro f
  have hreport : f.report =
      ⟨after.reverse ++ (before.reverse ++ m.report.contexts), m.report.cause⟩ := by
    rw [Fault.report_foldl_context, Report.foldl_context, Fault.trap, Report.foldl_context]
  have herrno : f.errno? = m.answer? := by
    rw [← m.errno?_report, Fault.errno?, hreport]
    rfl
  refine ⟨herrno, ?_, ?_⟩
  · rw [Fault.isTrap, herrno, Option.isNone_iff_eq_none]
  · rw [Fault.downcast, herrno, hreport]
    cases m.answer? <;> rfl

/-- A fault for the guest that was turned back and raised as a trap is the same fault again. -/
theorem trap_is_told :
    let f := Fault.trap (Making.turnedBack (.errno .badFileDescriptor)).report
    f.isTrap = false ∧ f.errno? = some .badFileDescriptor ∧
      f.downcast = .inl .badFileDescriptor ∧ f = .ofErrno .badFileDescriptor := by
  decide

end Hostcall
