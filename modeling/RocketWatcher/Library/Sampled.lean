import Mathlib.Algebra.Order.Group.Defs
import Mathlib.Data.List.Chain

/-!
# Samples of a time line

Samples are taken in order, each at most `gap` after the one before. Then every time that comes
between an early and a late sample is followed by two samples in a row within two gaps
(`Sampled.exists_adjacent`).
-/

variable {α T : Type*} [AddCommGroup T] [LinearOrder T]

/-- Each sample is taken after the one before, and within the gap. -/
def Sampled (time : α → T) (gap : T) (samples : List α) : Prop :=
  samples.IsChain fun a b => time a ≤ time b ∧ time b ≤ time a + gap

namespace Sampled

variable {time : α → T} {gap t : T} {a b : α} {samples : List α}

theorem cons_cons_iff : Sampled time gap (a :: b :: samples) ↔
    (time a ≤ time b ∧ time b ≤ time a + gap) ∧ Sampled time gap (b :: samples) :=
  List.isChain_cons_cons

/-- The first two samples after a time. -/
theorem exists_adjacent [IsOrderedAddMonoid T] (h : Sampled time gap (a :: samples))
    (hgap : 0 ≤ gap) (hearly : time a < t) (hlate : ∃ c ∈ a :: samples, t + gap ≤ time c) :
    ∃ before first second after, a :: samples = before ++ first :: second :: after ∧
      (∀ c ∈ before, time c < t) ∧ t ≤ time first ∧ time first < t + gap ∧
      time first ≤ time second ∧ time second < t + gap + gap := by
  have hfar {c : α} (hc : time c < t + gap) : ¬t + gap ≤ time c := not_le.mpr hc
  induction samples generalizing a with
  | nil =>
    obtain ⟨c, hc, hlate⟩ := hlate
    obtain rfl := List.mem_singleton.mp hc
    exact absurd hlate (hfar (hearly.trans_le (le_add_of_nonneg_right hgap)))
  | cons b samples ih =>
    obtain ⟨⟨hab, hba⟩, hrest⟩ := cons_cons_iff.mp h
    obtain ⟨c, hc, hlate⟩ := hlate
    have hnear : time a < t + gap := hearly.trans_le (le_add_of_nonneg_right hgap)
    have hc : c ∈ b :: samples := (List.mem_cons.mp hc).resolve_left fun heq =>
      hfar hnear (heq ▸ hlate)
    by_cases hb : time b < t
    · obtain ⟨before, first, second, after, hsplit, hbefore, hrest⟩ := ih hrest hb ⟨c, hc, hlate⟩
      refine ⟨a :: before, first, second, after, by rw [hsplit]; rfl, ?_, hrest⟩
      exact List.forall_mem_cons.mpr ⟨hearly, hbefore⟩
    · -- `b` is the first sample after the time, and too early to be the late one
      have hfirst : time b < t + gap := hba.trans_lt (add_lt_add_left hearly gap)
      have hc : c ∈ samples := (List.mem_cons.mp hc).resolve_left fun heq =>
        hfar hfirst (heq ▸ hlate)
      obtain ⟨second, after, rfl⟩ := List.exists_cons_of_ne_nil (List.ne_nil_of_mem hc)
      obtain ⟨⟨hle, hsecond⟩, -⟩ := cons_cons_iff.mp hrest
      refine ⟨[a], b, second, after, rfl, by simpa using hearly, not_lt.mp hb, hfirst, hle, ?_⟩
      exact hsecond.trans_lt (add_lt_add_left hfirst gap)

end Sampled
