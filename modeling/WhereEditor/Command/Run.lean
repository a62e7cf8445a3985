import WhereEditor.Command.Basic
import WhereEditor.Draft.Rows

/-!
What a command does to a draft, and the text it answers with.
-/

namespace WhereEditor

inductive Reply where
  | text (text : String)
  | quit

namespace Command

def answer (draft : Draft) : Reply × Draft := (.text draft.render, draft)

def run (clock : Clock) (draft : Draft) : Command → Except Error (Reply × Draft)
  | add position name =>
      .ok (.text ("已添加子句 " ++ draft.tree.next.label),
        draft.add (position.getD draft.tree.size) name)
  | delete id => .ok (.text ("已删除 " ++ id.label), draft.delete id)
  | field id name => (draft.setField id name).map answer
  | type id name => do
      let found ← NameKind.dataType.require name (DataType.ofName? draft.api name)
      return answer (← draft.setType id found)
  | operator id chosen => (draft.setOperator id chosen).map answer
  | value id text => (draft.setValue id (.literal text)).map answer
  | preset id window => (draft.setValue id (.preset window)).map answer
  | range id start stop isLocal => do
      let changed ← draft.addRange id start stop isLocal
      return (.text ("已添加上界子句 " ++ draft.tree.next.label ++ "\n" ++ changed.render), changed)
  | combinator id joiner => (draft.setCombinator id joiner).map answer
  | select ids => .ok (answer (ids.foldl (·.select · true) draft))
  | unselect ids => .ok (answer (ids.foldl (·.select · false) draft))
  | group => .ok (match draft.group? with
    | some grouped => answer grouped
    | none => (.text "无法分组: 需要至少两个相邻的选中项", draft))
  | ungroup id => .ok (answer (draft.ungroup id))
  | list => .ok (answer draft)
  | compile dialect columns => do
      let query ← draft.compile (dialect.getD (.forApi draft.api)) { clock, columns }
      return (.text query, draft)
  | sample partitionKey rowKey => .ok (answer (draft.loadExample partitionKey rowKey))
  | clear => .ok (answer draft.clear)
  | help => .ok (.text helpText, draft)
  | quit => .ok (.quit, draft)

end Command

end WhereEditor
