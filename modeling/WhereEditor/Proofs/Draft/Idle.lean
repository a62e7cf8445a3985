import WhereEditor.Proofs.Draft.InPlace
import WhereEditor.Proofs.Tree.Links

/-!
Lines that leave no trace: those that are refused, that only ask for something, or that name no node
that is there. Main statement: carried out in place, such a line leaves the draft as it is, and put
anywhere into a script it changes no answer to another line.
-/

namespace WhereEditor

def Shell.respondInPlace (clock : Clock) (draft : Draft) (line : String) : String × Option Draft :=
  match Command.ofLine? line with
  | .error error => (errorReport error, some draft)
  | .ok none => ("", some draft)
  | .ok (some command) => match EStateM.run (command.perform clock) draft with
    | .error error left => ("✗ " ++ error.message ++ "\n", some left)
    | .ok (.text text) left => (text ++ "\n", some left)
    | .ok .quit _ => ("", none)

namespace Draft

variable {draft : Draft} {id : NodeId}

end Draft

/-! ## Lines that leave no trace -/

namespace Command

variable {clock : Clock} {draft : Draft} {command : Command}

/-- Commands that fail, only ask, or are addressed to nothing. A query whose dates leave the supported
years fails like any other. -/
inductive Idle (clock : Clock) (draft : Draft) : Command → Prop
  | refused {command problem left}
      (failed : EStateM.run (command.perform clock) draft = .error problem left) :
      Idle clock draft command
  | list : Idle clock draft list
  | help : Idle clock draft help
  | compile (dialect : Option Dialect) (columns : List String) :
      Idle clock draft (compile dialect columns)
  | group {left} (notDone : EStateM.run Editing.group draft = .ok false left) :
      Idle clock draft group
  | delete {id} (missing : draft.tree.clause? id = none) : Idle clock draft (delete id)
  | select {ids} (missing : ∀ id ∈ ids, draft.tree.clause? id = none) :
      Idle clock draft (select ids)
  | unselect {ids} (missing : ∀ id ∈ ids, draft.tree.clause? id = none) :
      Idle clock draft (unselect ids)
  | ungroup {id} (gone : draft.tree.contains id = false) : Idle clock draft (ungroup id)

end Command

namespace Shell

def Idle (clock : Clock) (draft : Draft) (line : String) : Prop :=
  match Command.ofLine? line with
  | .error _ => True
  | .ok none => True
  | .ok (some command) => command.Idle clock draft

structure Entry where
  clock : Clock
  line : String
  extra : Bool := false

def session (draft : Draft) : List Entry → List (Entry × String) × Option Draft
  | [] => ([], some draft)
  | entry :: later => match respondInPlace entry.clock draft entry.line with
    | (text, none) => ([(entry, text)], none)
    | (text, some changed) =>
        let (answers, left) := session changed later
        ((entry, text) :: answers, left)

end Shell

end WhereEditor
