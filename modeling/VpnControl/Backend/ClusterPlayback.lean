import VpnControl.Backend.Cluster
import VpnControl.Backend.Playback

namespace VpnControl.Backend
open Strings Json Effects Prog Function

namespace Scenario
variable {ω : Type} (S : Scenario ω) (processOf : Nat → Nat)

def deployment : Deployment ω := ⟨S.platform, processOf⟩

def drawnIds (h : History) : List Text :=
  h.filterMap fun
    | (_, ⟨.uuid, .ok id⟩) => some id
    | _ => none

def longest : List Text → Text
  | [] => []
  | s :: texts => if s.length < (longest texts).length then longest texts else s

/-- An id longer than all that are stored or were drawn. -/
def undrawnId (s : Store) (h : History) : Text := 'i' :: longest (ids s ++ drawnIds h)

theorem length_le_longest {texts : List Text} {s : Text} (h : s ∈ texts) :
    s.length ≤ (longest texts).length := by
  induction texts with
  | nil => cases h
  | cons t texts ih =>
    rw [longest]
    rcases List.mem_cons.mp h with rfl | h
    · split <;> omega
    · have := ih h
      split <;> omega

theorem undrawnId_notMem (s : Store) (h : History) : undrawnId s h ∉ ids s ++ drawnIds h := by
  intro hmem
  have hle := length_le_longest hmem
  rw [undrawnId, List.length_cons] at hle
  omega

theorem fresh_undrawnId (s : Store) (h : History) : s.Fresh (undrawnId s h) :=
  fresh_of_notMem fun hmem => undrawnId_notMem s h (List.mem_append_left _ hmem)

theorem not_drew_undrawnId (s : Store) (h : History) (i : Nat) : ¬ h.Drew i (undrawnId s h) := by
  intro hdrew
  refine undrawnId_notMem s h (List.mem_append_right _ ?_)
  exact List.mem_filterMap.mpr ⟨_, hdrew, rfl⟩

/-- The answer to an operation of task `i` in the world of its process. -/
def answerAmong (i : Nat) (fault : Option Exc) : Responder (Cluster ω) Op Op.Res
  | C, .uuid => some (.ok (undrawnId C.store C.history), C.after (processOf i) i
      ⟨.uuid, .ok (undrawnId C.store C.history)⟩ (C.world (processOf i)))
  | C, e => (S.answer i fault (C.world (processOf i)) e).map fun (r, w) =>
      (r, C.after (processOf i) i ⟨e, r⟩ w)

theorem answerAmong_step (i : Nat) (fault : Option Exc) {C C' : Cluster ω} {e : Op} {r : e.Res}
    (h : S.answerAmong processOf i fault C e = some (r, C')) :
    (S.deployment processOf).step i C e r C' := by
  cases e with
  | uuid =>
    simp only [answerAmong, Option.some.injEq, Prod.mk.injEq] at h
    obtain ⟨rfl, rfl⟩ := h
    refine ⟨_, ⟨?_, not_drew_undrawnId C.store C.history⟩, rfl⟩
    exact ⟨fresh_undrawnId C.store C.history, rfl⟩
  | claimNextSetupJob at' currentStep =>
    obtain ⟨⟨a, w⟩, hanswer, hr⟩ := Option.map_eq_some_iff.mp h
    cases hr
    have henv := S.answer_env i fault hanswer
    refine ⟨w, ?_, rfl⟩
    cases r with
    | error x => exact henv
    | ok next =>
      obtain ⟨queued, hqueued, hnext⟩ := henv
      cases queued with
      | none =>
        obtain ⟨rfl, rfl⟩ := hnext
        rfl
      | some job =>
        obtain ⟨rfl, rfl⟩ := hnext
        exact ⟨⟨job, hqueued.1, rfl⟩, rfl⟩
  | _ =>
    simp only [answerAmong, Option.map_eq_some_iff] at h
    obtain ⟨⟨a, w⟩, hanswer, hr⟩ := h
    cases hr
    exact ⟨w, S.answer_env i fault hanswer, rfl⟩

/-- Every schedule gives a run of the processes. -/
theorem play_parallel {α Call : Type} (program : Call → Task α)
    (moves : List (Move Call (Option Exc))) (y : Loop (Cluster ω) Op.Res Exc α Call) :
    Relation.ReflTransGen
      (Loop.Step (S.deployment processOf).parallel Cluster.Tick program) y
      (Loop.play (S.deployment processOf).parallel (S.answerAmong processOf) program moves y) := by
  apply Loop.play_reachable
  exact fun i fault _ _ _ _ h => S.answerAmong_step processOf i fault h

end Scenario

namespace Sample

/-- Processes with nothing in memory over a storage. -/
def cluster (store : Store) : Cluster Unit where
  store := store
  agents := ()
  process _ := { agents := () }

def form : SetupJobCreate where
  serverName := lit "edge"
  host := lit "edge.example"
  authMethod := .password
  secret := lit "hunter2"

/-- `n` operations of task `i`. -/
def acts {Call : Type} (i n : Nat) : List (Move Call (Option Exc)) := List.replicate n (.act i none)

/-- Task 1 creates a job. -/
def creation : List (Move SetupCall (Option Exc)) := [.start 1 (.create user form)] ++ acts 1 10

/-- The worker, task 0, claims the job, and its operations, tasks 2 to 5, all succeed. -/
def installation : List (Move SetupCall (Option Exc)) :=
  [.start 0 (.work 3 2)] ++ acts 0 11 ++ [.start 2 (.operation 0)] ++ acts 2 3 ++
    acts 0 11 ++ [.start 3 (.operation 1)] ++ acts 3 3 ++
    acts 0 11 ++ [.start 4 (.operation 2)] ++ acts 4 3 ++
    acts 0 15 ++ [.start 5 (.operation 3)] ++ acts 5 15 ++ acts 0 15

/-- What becomes of the calls of one process or several when a schedule is played. -/
def play (processOf : Nat → Nat) (moves : List (Move SetupCall (Option Exc)))
    (y : Loop (Cluster Unit) Op.Res Exc SetupReply SetupCall) :
    Loop (Cluster Unit) Op.Res Exc SetupReply SetupCall :=
  Loop.play ((scenario .database).deployment processOf).parallel
    ((scenario .database).answerAmong processOf) services.setupCall moves y

end Sample
end VpnControl.Backend
