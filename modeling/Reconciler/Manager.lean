import Reconciler.Subroutine
import Reconciler.Text.Blank

set_option autoImplicit false

namespace Reconciler

structure Setup (σ : Type) where
  operator : String
  controller : String
  subroutines : List (Subroutine σ)
  conditions : Bool := false
  spread : Bool := false

namespace Setup

inductive Fault where
  | blankOperator
  | blankController
  | blankName
  | duplicateName (name : String)
  | blankFinalizer (name : String)
  deriving DecidableEq, Repr

def Fault.message : Fault → String
  | blankOperator => "operator name must not be empty"
  | blankController => "controller name must not be empty"
  | blankName => "subroutine name must not be empty"
  | duplicateName name => "duplicate subroutine name: " ++ name
  | blankFinalizer name => "subroutine " ++ name ++ " declares an empty finalizer"

def subroutineFault? {σ : Type} (seen : List String) : List (Subroutine σ) → Option Fault
  | [] => none
  | s :: rest =>
      if Text.blank s.name then some .blankName
      else if seen.contains s.name then some (.duplicateName s.name)
      else if s.finalizers.any Text.blank then some (.blankFinalizer s.name)
      else subroutineFault? (s.name :: seen) rest

def fault? {σ : Type} (setup : Setup σ) : Option Fault :=
  if Text.blank setup.operator then some .blankOperator
  else if Text.blank setup.controller then some .blankController
  else subroutineFault? [] setup.subroutines

theorem names_of_faultless {σ : Type} {seen : List String} {subroutines : List (Subroutine σ)}
    (h : subroutineFault? seen subroutines = none) :
    (subroutines.map (·.name)).Nodup ∧ ∀ s ∈ subroutines, s.name ∉ seen := by
  induction subroutines generalizing seen with
  | nil => simp
  | cons s rest ih =>
      simp only [subroutineFault?] at h
      split at h
      · simp at h
      · split at h
        · simp at h
        · split at h
          · simp at h
          · rename_i _ unseen _
            obtain ⟨distinct, apart⟩ := ih h
            refine ⟨List.nodup_cons.mpr ⟨?_, distinct⟩, fun other member => ?_⟩
            · intro again
              obtain ⟨other, member, same⟩ := List.mem_map.mp again
              exact apart other member (same ▸ List.mem_cons_self)
            · rcases List.mem_cons.mp member with rfl | later
              · simpa using unseen
              · exact fun early => apart other later (List.mem_cons_of_mem _ early)

end Setup

structure Manager (σ : Type) extends Setup σ where
  faultless : toSetup.fault? = none

namespace Manager

def build {σ : Type} (setup : Setup σ) : Except Error (Manager σ) :=
  match h : setup.fault? with
  | none => .ok { toSetup := setup, faultless := h }
  | some fault => .error (.configuration fault.message)

theorem names_nodup {σ : Type} (m : Manager σ) : (m.subroutines.map (·.name)).Nodup := by
  have checked := m.faultless
  simp only [Setup.fault?] at checked
  split at checked
  · simp at checked
  · split at checked
    · simp at checked
    · exact (Setup.names_of_faultless checked).1

end Manager

end Reconciler
