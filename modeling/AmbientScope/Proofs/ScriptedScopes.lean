import AmbientScope.Proofs.LexicalScopes
import AmbientScope.Scope.Script

/-!
# Scripts and commands

Whatever slots a script uses, and however its bodies are nested, the scopes that it leaves behind are reached by a list
of commands.
-/

set_option autoImplicit false

namespace AmbientScope

namespace Scopes
variable {κ α : Type} [DecidableEq κ] {s s' s'' : Scopes κ α}

/-- Commands lead from one to the other. -/
def Reaches (s s' : Scopes κ α) : Prop := ∃ commands, (s.performAll commands).2 = s'

theorem Reaches.refl (s : Scopes κ α) : s.Reaches s := ⟨[], rfl⟩

theorem Reaches.head (q : Command κ α) (h : (s.perform q).2.Reaches s') : s.Reaches s' := by
  obtain ⟨commands, h⟩ := h
  exact ⟨q :: commands, h⟩

theorem Reaches.trans (h : s.Reaches s') (h' : s'.Reaches s'') : s.Reaches s'' := by
  obtain ⟨commands, rfl⟩ := h
  induction commands generalizing s with
  | nil => exact h'
  | cons q rest ih => exact (ih h').head q

end Scopes

namespace Script
variable {w : World} {slot : String}

theorem reaches_give (w : World) (q : Scopes.Command BindingKey Value) :
    w.scopes.Reaches (w.give q).2.scopes :=
  ⟨[q], rfl⟩

theorem scopes_keep (w : World) (slot : Option String) (a : Context.Answer Value) :
    (w.keep slot a).scopes = w.scopes := by
  cases a <;> cases slot <;> rfl

theorem reaches_onFrame {f : FrameId → Outcome × World}
    (h : ∀ id, w.scopes.Reaches (f id).2.scopes) :
    w.scopes.Reaches (w.onFrame slot f).2.scopes := by
  unfold World.onFrame
  split
  · exact h _
  · exact .refl _

theorem reaches_onRuntime {f : RuntimeId → Outcome × World}
    (h : ∀ id, w.scopes.Reaches (f id).2.scopes) :
    w.scopes.Reaches (w.onRuntime slot f).2.scopes := by
  unfold World.onRuntime
  split
  · exact h _
  · exact .refl _

theorem reaches_onContext {f : ContextId → Outcome × World}
    (h : ∀ id, w.scopes.Reaches (f id).2.scopes) :
    w.scopes.Reaches (w.onContext slot f).2.scopes := by
  unfold World.onContext
  split
  · exact .refl _
  · exact h _

mutual

/-- A script does nothing that commands on the scopes do not do. -/
theorem perform_reaches (w : World) (c : Command) : w.scopes.Reaches (perform w c).2.scopes := by
  cases c with
  | runtime slot label => exact reaches_give w (.runtime (label.getD Store.defaultLabel))
  | detached slot => exact reaches_give w .detached
  | context runtime slot => exact reaches_onRuntime fun id => reaches_give w (.context id)
  | root runtime slot =>
    refine reaches_onRuntime fun id => ?_
    simpa only [scopes_keep] using reaches_give w (.root id)
  | identity slot => exact reaches_onFrame fun id => reaches_give w (.identify id)
  | parent frame slot =>
    refine reaches_onFrame fun id => ?_
    cases w.scopes.store.parent? id with
    | none => exact .refl w.scopes
    | some p => cases slot <;> exact .refl w.scopes
  | push slot label frame =>
    refine reaches_onContext fun id => ?_
    simpa only [scopes_keep] using
      reaches_give w (.on id (.push (label.getD Store.defaultLabel)))
  | pop slot => exact reaches_onContext fun id => reaches_give w (.on id .pop)
  | current slot frame =>
    refine reaches_onContext fun id => ?_
    simpa only [scopes_keep] using reaches_give w (.on id .current)
  | fork slot copy => exact reaches_onContext fun id => reaches_give w (.fork id)
  | provide slot key value =>
    exact reaches_onContext fun id => reaches_give w (.on id (.provide key value))
  | resolve slot key => exact reaches_onContext fun id => reaches_give w (.on id (.resolve key))
  | resolveValue slot key =>
    exact reaches_onContext fun id => reaches_give w (.on id (.resolve key))
  | tryResolve slot key => exact reaches_onContext fun id => reaches_give w (.on id (.resolve key))
  | enter slot label frame body =>
    refine reaches_onContext fun id => ?_
    have hbody := performAll_reaches ((w.give (.on id (.enter label))).2.keep frame
      (w.give (.on id (.enter label))).1) body
    rw [scopes_keep] at hbody
    exact ((reaches_give w (.on id (.enter label))).trans hbody).trans
      (reaches_give _ (.on id .leave))
  | isInitialized slot => exact reaches_onRuntime fun id => .refl w.scopes
  | same first second => exact reaches_onFrame fun a => reaches_onFrame fun b => .refl w.scopes
  | frameInfo slot => exact reaches_onFrame fun id => .refl w.scopes
  | ancestors slot => exact reaches_onFrame fun id => .refl w.scopes
  | describeFrame slot => exact reaches_onFrame fun id => .refl w.scopes
  | describe slot => exact reaches_onContext fun id => .refl w.scopes
  | key k => exact .refl w.scopes

theorem performAll_reaches (w : World) (script : List Command) :
    w.scopes.Reaches (performAll w script).2.scopes := by
  cases script with
  | nil => exact .refl _
  | cons c rest => exact (perform_reaches w c).trans (performAll_reaches _ rest)

end

/-- What a script leaves behind stands for environments that are reached by commands. -/
theorem run_environments (script : List Command) :
    ∃ commands, (Environments.performAll {} commands).2 =
      (performAll {} script).2.scopes.environments := by
  obtain ⟨commands, hcommands⟩ := performAll_reaches {} script
  have hrun := (Scopes.performAll_environments Scopes.valid_empty commands).1
  refine ⟨commands, ?_⟩
  rw [← hcommands]
  exact congrArg Prod.snd hrun

end Script

end AmbientScope
