import WhereEditor.Command.Run
import WhereEditor.Command.Sentence
import WhereEditor.Settings.File
import WhereEditor.Text.Backspace

/-!
A session at the terminal: a greeting that says which settings are in use, then an answer to each
line until the user quits or the input ends.
-/

namespace WhereEditor.Shell

def defaultPath : String := "query_builder.json"

def banner : String := "--- 表查询构建器 ---\n"

def settingsReport (path : String) : Except LoadError Settings → String
  | .ok settings =>
      "✅ 使用JSON配置文件: " ++ path ++ "\n✅ API: " ++ settings.api.title ++ ", 共 " ++
        toString settings.schema.columns.length ++ " 列\n" ++
        String.join (settings.schema.columns.map fun column =>
          "  " ++ column.name ++ " : " ++ column.typeName ++ "\n")
  | .error reason => "⚠️ 无法加载JSON配置文件 (" ++ reason.message path ++ "), 使用示例配置\n"

def start (loaded : Except LoadError Settings) : Draft :=
  let settings := match loaded with
    | .ok settings => settings
    | .error _ => .sample .tables
  Draft.clear { settings }

def greeting (path : String) (loaded : Except LoadError Settings) : String :=
  banner ++ "\n[配置信息]:\n" ++ settingsReport path loaded ++ "\n输入 help 查看命令\n" ++
    (start loaded).render ++ "\n"

def errorReport (error : SyntaxError) : String :=
  let place := match error.span? with
    | some span => "  位置 " ++ toString span.start ++ "-" ++ toString span.stop ++ "\n"
    | none => ""
  "✗ 解析失败: " ++ error.message ++ "\n" ++ place

def respond (clock : Clock) (draft : Draft) (line : String) : String × Option Draft :=
  match Command.ofLine? line with
  | .error error => (errorReport error, some draft)
  | .ok none => ("", some draft)
  | .ok (some command) => match command.run clock draft with
    | .error error => ("✗ " ++ error.message ++ "\n", some draft)
    | .ok (.text text, changed) => (text ++ "\n", some changed)
    | .ok (.quit, _) => ("", none)

def lines : List Char → List (List Char)
  | [] => []
  | character :: rest =>
      if character = '\n' then [character] :: lines rest
      else match lines rest with
        | [] => [[character]]
        | line :: later => (character :: line) :: later

/-- A line as the user meant it: without the line feed at its end and a carriage return before
that, and after its backspaces. -/
def typed? (line : List Char) : Option String :=
  let line :=
    if line.getLast? = some '\n' then
      let line := line.dropLast
      if line.getLast? = some '\r' then line.dropLast else line
    else line
  (Text.Backspace.resolve? line).map String.ofList

/-- The exit code of a session that meets a line whose backspaces cut a character in two. -/
def failureCode : Nat := 101

def respondAll (clock : Clock) (draft : Draft) : List (List Char) → String × Nat
  | [] => ("", 0)
  | raw :: later => match typed? raw with
    | none => ("", failureCode)
    | some line => match respond clock draft line with
      | (text, some changed) =>
          let (rest, code) := respondAll clock changed later
          (text ++ rest, code)
      | (text, none) => (text, 0)

def transcript (clock : Clock) (path : String) (loaded : Except LoadError Settings)
    (input : String) : String × Nat :=
  let (printed, code) := respondAll clock (start loaded) (lines input.toList)
  (greeting path loaded ++ printed, code)

end WhereEditor.Shell
