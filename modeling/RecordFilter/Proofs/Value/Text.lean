import RecordFilter.Proofs.Fallible
import RecordFilter.Value.Text

namespace RecordFilter.Value

variable {v : Value} {s : String}

theorem written?_of_isWritable (h : v.isWritable = true) : v.written? = .ok v.render := if_pos h

theorem written?_eq_ok_iff : v.written? = .ok s ↔ v.isWritable = true ∧ v.render = s := by
  unfold written?
  split_ifs with h <;> simp [h]

theorem written?_eq_error {f : Fault} (h : v.written? = .error f) : f = .unreadable "" := by
  unfold written? at h
  split_ifs at h
  exact (Except.error.inj h).symm

theorem written?_text (s : String) : (Value.text s).written? = .ok s := by
  rw [written?_eq_ok_iff]
  exact ⟨by simp [isWritable], by rw [render]⟩

theorem mapM_written?_of_isWritable {vs : List Value} (h : ∀ v ∈ vs, v.isWritable = true) :
    vs.mapM written? = .ok (vs.map render) := by
  induction vs with
  | nil => rfl
  | cons v vs ih =>
    rw [List.mapM_cons, written?_of_isWritable (h v (by simp)), ih fun w hw => h w (by simp [hw])]
    rfl

end RecordFilter.Value
