import Mathlib.Tactic

/-!
# Transducers

A transducer reads its input one symbol at a time, emits output on the way and
keeps a state.  Input that brings it back to the state it was in is translated
on its own, whatever follows.
-/

namespace Transducers

structure Transducer (State Input Output : Type*) where
  step : State → Input → List Output × State
  flush : State → List Output

namespace Transducer

variable {State Input Output : Type*}
  (machine : Transducer State Input Output)

/-- The output for a stretch of input, and the state after it. -/
def feed : State → List Input → List Output × State
  | state, [] => ([], state)
  | state, input :: rest =>
      let first := machine.step state input
      let others := feed first.2 rest
      (first.1 ++ others.1, others.2)

def run (state : State) (inputs : List Input) : List Output :=
  (machine.feed state inputs).1 ++ machine.flush (machine.feed state inputs).2

theorem feed_append (state : State) (before after : List Input) :
    machine.feed state (before ++ after) =
      ((machine.feed state before).1 ++
          (machine.feed (machine.feed state before).2 after).1,
        (machine.feed (machine.feed state before).2 after).2) := by
  induction before generalizing state with
  | nil => simp [feed]
  | cons input before ih =>
      simp only [List.cons_append, feed]
      rw [ih]
      simp [List.append_assoc]

theorem feed_append_of_feed
    {state middle : State} {before : List Input} {output : List Output}
    (hfeed : machine.feed state before = (output, middle)) (after : List Input) :
    machine.feed state (before ++ after) =
      (output ++ (machine.feed middle after).1, (machine.feed middle after).2) := by
  rw [feed_append, hfeed]

theorem feed_trans
    {state middle final : State} {before after : List Input}
    {output output' : List Output}
    (hbefore : machine.feed state before = (output, middle))
    (hafter : machine.feed middle after = (output', final)) :
    machine.feed state (before ++ after) = (output ++ output', final) := by
  rw [machine.feed_append_of_feed hbefore, hafter]

theorem run_append_of_feed
    {state middle : State} {before : List Input} {output : List Output}
    (hfeed : machine.feed state before = (output, middle)) (after : List Input) :
    machine.run state (before ++ after) = output ++ machine.run middle after := by
  unfold run
  rw [feed_append, hfeed]
  simp [List.append_assoc]

theorem feed_flatMap
    {Piece : Type*} {state : State} {pieces : List Piece}
    (text : Piece → List Input) (output : Piece → List Output)
    (hfeed : ∀ piece ∈ pieces,
      machine.feed state (text piece) = (output piece, state)) :
    machine.feed state (pieces.flatMap text) = (pieces.flatMap output, state) := by
  induction pieces with
  | nil => rfl
  | cons piece pieces ih =>
      have hfirst := hfeed piece List.mem_cons_self
      have hrest := ih fun other hmem => hfeed other (List.mem_cons_of_mem _ hmem)
      rw [List.flatMap_cons, machine.feed_append_of_feed hfirst, hrest,
        List.flatMap_cons]

end Transducer

end Transducers
