import StackEditor.Proofs.Session.Breakpoints

/-!
# What an edit does to the breakpoints

A host replaces the text of a session and tells it. Where the breakpoints go then is said by the
two texts alone, with no mention of anchors: an offset lands where the longest start and the longest
end that the texts share put it, and the breakpoint goes to the token that covers the place
(`settling?`). The list is the fold of that over the old one. `Fits.berth?_replaceText` and
`Fits.replaceText` lead there from the anchors.
-/

namespace StackEditor

/-- The event is a report of breakpoints. -/
def SessionEvent.isBreakpoints : SessionEvent → Bool
  | .breakpointsChanged _ => true
  | _ => false

/-- Where a breakpoint on the text `old` goes on the text `new`, if a start of length `first` and an
end of length `final` are kept: to the start of the token that covers the place where its offset
lands. -/
def settling? (old new : String) (first final : Nat) (b : Breakpoint) : Option Position := do
  let offset ← offsetOf? old.toList b.position
  let landed ← landing? old.toList new.toList first final offset
  (tokenAt? (tokenize new) (positionAt new.toList landed)).map (·.start)

namespace EditorSession

open TextAnchors Tracker

variable {ε σ η : Type} [HostSurface η] {s : EditorSession TextAnchors ε σ η}

omit [HostSurface η] in
/-- The breakpoints of a fitting session are at offsets of its source. -/
theorem Fits.exists_offset (h : s.Fits) {b : Breakpoint} (hb : b ∈ s.tracker.breakpoints) :
    ∃ o, offsetOf? s.source.toList b.position = some o ∧
      s.tracker.host.find? b.anchor = some (.point o) := by
  obtain ⟨o, ho, hfind, hpos⟩ := h.moored.bears b hb
  refine ⟨o, ?_, hfind⟩
  rw [h.source, text, String.toList_ofList, ← hpos]
  exact offsetOf?_positionAt ho

omit [HostSurface η] in
/-- After the host has replaced the text, the anchor of a breakpoint is where the edit moves the
offset of the breakpoint. -/
theorem Fits.berth?_replaceText (h : s.Fits) (new : String) {b : Breakpoint}
    (hb : b ∈ s.tracker.breakpoints) (tokens : List Token) :
    (s.tracker.host.replaceText new).berth? tokens b =
      ((offsetOf? s.source.toList b.position).bind
        (Edit.between s.source.toList new.toList).move).bind fun o =>
          (tokenAt? tokens (positionAt new.toList o)).map (·.start) := by
  obtain ⟨o, ho, hfind⟩ := h.exists_offset hb
  have hsource : s.source.toList = s.tracker.host.chars := by
    rw [h.source, text, String.toList_ofList]
  have hmoved := (editedBy_replaceText s.tracker.host new).find?_point h.moored.holds.tidy hfind
  rw [ho, Option.bind_some, hsource]
  cases hmove : (Edit.between s.tracker.host.chars new.toList).move o with
  | none =>
    rw [hmove] at hmoved
    rw [TextAnchors.berth?, TextAnchors.resolve, hmoved]
    rfl
  | some moved =>
    rw [hmove] at hmoved
    rw [TextAnchors.berth?, resolve_of_find?_point hmoved]
    rfl

/-- What a session makes of a new text. -/
theorem Fits.replaceText (h : s.Fits) (new : String) :
    ((s.withHost (s.tracker.host.replaceText new)).announce.tracker.breakpoints.map
        Breakpoint.mark =
      s.tracker.breakpoints.foldl
        (carry ((s.tracker.host.replaceText new).berth? (tokenize new))) []) ∧
      ∃ rest, (s.withHost (s.tracker.host.replaceText new)).announce.events = s.events ++ rest ∧
        (rest.filter SessionEvent.isBreakpoints).length ≤ 1 := by
  obtain ⟨-, -, hmarks, ds, reports, hevents, hlength⟩ := announce_spec
    (s := s.withHost (s.tracker.host.replaceText new))
    (h.moored.holds.edit (editedBy_replaceText _ new)) h.quiet h.lexer
  have htext : (s.tracker.host.replaceText new).text = new := String.ofList_toList
  refine ⟨?_, _, hevents, ?_⟩
  · rw [hmarks]
    simp only [withHost, htext]
  · have hreports : (reports.map SessionEvent.breakpointsChanged).filter
        SessionEvent.isBreakpoints = reports.map .breakpointsChanged :=
      List.filter_eq_self.2 (by simp [SessionEvent.isBreakpoints])
    rw [List.filter_cons_of_neg (by simp [SessionEvent.isBreakpoints]), hreports, List.length_map]
    exact hlength

variable [Evaluator ε] [StepScheduler σ]

/-- When the text is replaced, each breakpoint in turn goes to the token where its offset lands,
keeps kind and expression, and is dropped if there is none or an earlier one is there. That is
reported once at most. -/
theorem Reached.breakpoints_of_replaceText (h : Reached s) (new : String) {first final : Nat}
    (hfirst : IsGreatest {n | ShareStart s.source.toList new.toList n} first)
    (hfinal : IsGreatest {n | ShareEnd s.source.toList new.toList n ∧
      first + n ≤ s.source.toList.length ∧ first + n ≤ new.toList.length} final) :
    (∀ b ∈ s.tracker.breakpoints, (offsetOf? s.source.toList b.position).isSome) ∧
      (s.perform (.replaceText new)).tracker.breakpoints.map Breakpoint.mark =
        s.tracker.breakpoints.foldl (carry (settling? s.source new first final)) [] ∧
      ∃ rest, (s.perform (.replaceText new)).events = s.events ++ rest ∧
        (rest.filter SessionEvent.isBreakpoints).length ≤ 1 := by
  have hfits := h.fits
  obtain ⟨hmarks, hevents⟩ := hfits.replaceText new
  refine ⟨fun b hb => ?_, hmarks.trans (foldl_carry_congr (fun b hb => ?_) []), hevents⟩
  · obtain ⟨o, ho, -⟩ := hfits.exists_offset hb
    rw [ho]
    rfl
  · have hmove : (Edit.between s.source.toList new.toList).move =
        landing? s.source.toList new.toList first final :=
      funext fun _ => Edit.move_between hfirst hfinal
    rw [hfits.berth?_replaceText new hb, hmove, Option.bind_assoc]
    rfl

/-- A blank more between the words pushes the breakpoint along. -/
theorem atSecondWord_replaceText :
    (atSecondWord.perform (.replaceText "a  b")).tracker.breakpoints.map Breakpoint.mark =
      [(⟨0, 3⟩, .unconditional, none)] := by
  obtain ⟨-, hmarks, -⟩ := Reached.breakpoints_of_replaceText reached_atSecondWord "a  b"
    (isGreatest_commonStart _ _) (isGreatest_commonEnd (by decide +kernel) (by decide +kernel))
  rw [hmarks]
  decide +kernel

end EditorSession

end StackEditor
