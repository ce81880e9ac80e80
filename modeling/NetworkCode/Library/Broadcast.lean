import Mathlib.Logic.Function.Basic
import NetworkCode.Library.Runs

/-!
# Machines on a shared medium

Any number of machines take their steps in any order.  What one of them sends
stays on the medium, which may lose, delay, repeat and reorder it, so a machine
reads nothing but what the medium carries of something sent.  One rule turns
what each machine guarantees, relying on what it reads, into a fact about
every run of all of them.
-/

namespace NetworkCode.Library

universe u v w

/-- The states of the machines, and what they have sent. -/
structure Cluster (ν : Type u) (σ : Type v) (φ : Type w) where
  machine : ν → σ
  sent : List φ

namespace Cluster

variable {ν : Type u} {σ : Type v} {α φ : Type w} [DecidableEq ν]

/-- One machine takes a step, with a label that says what it reads and sends. -/
inductive Step (step : ν → σ → α → σ → Prop) (reads : α → φ → Prop) (sends : α → List φ)
    (carries : φ → φ → Prop) (cluster : Cluster ν σ φ) : ν × α → Cluster ν σ φ → Prop where
  | intro {who : ν} {label : α} {after : σ} (taken : step who (cluster.machine who) label after)
      (heard : ∀ frame, reads label frame →
        ∃ original ∈ cluster.sent, carries original frame) :
      Step step reads sends carries cluster (who, label)
        ⟨Function.update cluster.machine who after, cluster.sent ++ sends label⟩

variable {step : ν → σ → α → σ → Prop} {reads : α → φ → Prop} {sends : α → List φ}
  {carries : φ → φ → Prop}

/--
Where every machine, as long as what it reads was good when it was sent, keeps
its invariant and sends good frames, all invariants hold and all frames are good
after every run.  Both may refer to the history, and history only adds to them.
-/
theorem run_guarantee (inv : List (ν × α) → ν → σ → Prop) (good : List (ν × α) → φ → Prop)
    (inv_mono : ∀ history label who state, inv history who state →
      inv (history ++ [label]) who state)
    (good_mono : ∀ history label frame, good history frame → good (history ++ [label]) frame)
    (kept : ∀ history who before label after,
      (∀ frame, reads label frame → ∃ original, good history original ∧ carries original frame) →
      inv history who before → step who before label after →
      inv (history ++ [(who, label)]) who after ∧
        ∀ frame ∈ sends label, good (history ++ [(who, label)]) frame)
    {first last : Cluster ν σ φ} {labels : List (ν × α)}
    (run : Run (Step step reads sends carries) first labels last)
    (initial : ∀ who, inv [] who (first.machine who)) (quiet : first.sent = []) :
    (∀ who, inv labels who (last.machine who)) ∧ ∀ frame ∈ last.sent, good labels frame := by
  refine run.history (fun history cluster =>
    (∀ who, inv history who (cluster.machine who)) ∧ ∀ frame ∈ cluster.sent, good history frame)
    ⟨initial, quiet ▸ List.forall_mem_nil _⟩ ?_
  rintro history cluster label next - ⟨holds, allGood⟩ taken
  cases taken with
  | @intro who label after taken heard =>
      have relied : ∀ frame, reads label frame →
          ∃ original, good history original ∧ carries original frame := by
        intro frame read
        obtain ⟨original, member, carried⟩ := heard frame read
        exact ⟨original, allGood original member, carried⟩
      obtain ⟨invariant, sentGood⟩ := kept history who _ label after relied (holds who) taken
      refine ⟨fun other => ?_, fun frame member => ?_⟩
      · dsimp only
        rcases eq_or_ne other who with rfl | distinct
        · rw [Function.update_self]
          exact invariant
        · rw [Function.update_of_ne distinct]
          exact inv_mono history _ other _ (holds other)
      · rcases List.mem_append.mp member with earlier | newest
        · exact good_mono history _ frame (allGood frame earlier)
        · exact sentGood frame newest

/-- A run of one machine that reads nothing but what has been sent before is a run of the
cluster. -/
theorem run_alone (who : ν) (cluster : Cluster ν σ φ) {after : σ} {labels : List α}
    (run : Run (step who) (cluster.machine who) labels after)
    (heard : ∀ label ∈ labels, ∀ frame, reads label frame →
      ∃ original ∈ cluster.sent, carries original frame) :
    Run (Step step reads sends carries) cluster (labels.map (who, ·))
      ⟨Function.update cluster.machine who after, cluster.sent ++ labels.flatMap sends⟩ := by
  induction run with
  | refl =>
      rw [Function.update_eq_self, List.flatMap_nil, List.append_nil]
      exact .refl cluster
  | @tail middle last labels label _ hstep ih =>
      have earlier := ih fun label member => heard label (List.mem_append_left _ member)
      have taken : step who (Function.update cluster.machine who middle who) label last := by
        rw [Function.update_self]
        exact hstep
      have further := earlier.tail (.intro taken fun frame read => by
        obtain ⟨original, sent, carried⟩ :=
          heard label (List.mem_append_right _ (List.mem_singleton_self _)) frame read
        exact ⟨original, List.mem_append_left _ sent, carried⟩)
      simpa using further

variable (step) in
/-- A machine acts without reading, and another one reads what it has sent. -/
theorem run_pair (first second : ν) (distinct : second ≠ first) (cluster : Cluster ν σ φ)
    {after after' : σ} {labels labels' : List α}
    (run : Run (step first) (cluster.machine first) labels after)
    (deaf : ∀ label ∈ labels, ∀ frame, ¬ reads label frame)
    (run' : Run (step second) (cluster.machine second) labels' after')
    (heard : ∀ label ∈ labels', ∀ frame, reads label frame →
      ∃ original ∈ labels.flatMap sends, carries original frame) :
    ∃ last, Run (Step step reads sends carries) cluster
        (labels.map (first, ·) ++ labels'.map (second, ·)) last ∧
      last.machine second = after' ∧ ∀ frame ∈ labels.flatMap sends, frame ∈ last.sent := by
  have alone : Run (Step step reads sends carries) cluster (labels.map (first, ·)) _ :=
    run_alone first cluster run fun label member frame read =>
      absurd read (deaf label member frame)
  have next : Run (step second) (Function.update cluster.machine first after second) labels'
      after' := by
    rw [Function.update_of_ne distinct]
    exact run'
  refine ⟨_, alone.trans (run_alone second ⟨_, _⟩ next fun label member frame read => ?_),
    Function.update_self .., fun frame sent => ?_⟩
  · obtain ⟨original, sent, carried⟩ := heard label member frame read
    exact ⟨original, List.mem_append_right _ sent, carried⟩
  · exact List.mem_append_left _ (List.mem_append_right _ sent)

end Cluster

end NetworkCode.Library
