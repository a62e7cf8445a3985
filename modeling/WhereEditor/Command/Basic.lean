import WhereEditor.Query.Dialect

/-!
The commands of the editor, and the summary of them that is shown to the user.
-/

namespace WhereEditor

inductive Command where
  /-- Without a position, at the end. -/
  | add (position : Option Nat) (field : Option String)
  | delete (id : NodeId)
  | field (id : NodeId) (name : String)
  | type (id : NodeId) (name : String)
  | operator (id : NodeId) (operator : Operator)
  | value (id : NodeId) (text : String)
  | preset (id : NodeId) (window : Preset)
  | range (id : NodeId) (start stop : String) (isLocal : Bool)
  | combinator (id : NodeId) (combinator : Combinator)
  | select (ids : List NodeId)
  | unselect (ids : List NodeId)
  | group
  | ungroup (id : NodeId)
  | list
  /-- Without a dialect, in the one of the table's kind. -/
  | compile (dialect : Option Dialect) (columns : List String)
  | sample (partitionKey rowKey : String)
  | clear
  | help
  | quit
  deriving DecidableEq

namespace Command

def helpText : String := "\n".intercalate
  ["命令:",
    "  add [位置] [字段]              在指定位置插入子句 (默认追加到末尾)",
    "  del <#id>                      删除子句",
    "  field <#id> <字段>             设置字段",
    "  type <#id> <类型>              设置数据类型",
    "  op <#id> <= | > | >= | < | <= | <>>",
    "  value <#id> <值>               设置值, 含空格时用双引号",
    "  preset <#id> <预设>            时间预设, 例如 \"last 7 days\"",
    "  range <#id> <开始> <结束> [local|utc]",
    "  and <#id> | or <#id>           设置连接词",
    "  select <#id>... | unselect <#id>...",
    "  group                          将选中的相邻子句编为一组",
    "  ungroup <#id>                  解散分组 (可传组内任一子句)",
    "  list                           列出全部子句",
    "  compile [filter|sql|cql] [列...]",
    "  example <分区键> <行键>",
    "  clear | help | quit"]

end Command

end WhereEditor
