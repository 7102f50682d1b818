import MiniDbms.Common.Utils
import MiniDbms.Library.Stdio

/-!
# The command line of `main.c`

File mode and the interactive mode run statements against an engine. What `db_execute_sql` does to
the engine is the parameter `execute`; its result is only rendered.
-/

namespace MiniDbms

/-- `MAX_SQL_LENGTH` -/
def maxSqlLength : Nat := 8192

section

variable {σ : Type} (execute : σ → CString → σ)

/-- `main_skip_whitespace` -/
def mainSkipWhitespace (text : CString) (index : Nat) : Nat :=
  index + ((text.drop index).takeWhile isspace).length

/-- `main_process_sql_statement` -/
def mainProcessSqlStatement (engine : σ) (sql : CString) : σ :=
  let workingSql := utilsTrim sql
  if workingSql.isEmpty then engine else execute engine workingSql

/-! ### File mode -/

/-- The loop of `main_run_file_mode` from `start` on. Each round moves `start` on, so that the
length of the content is fuel enough. -/
def mainFileLoop : (fuel : Nat) → (content : CString) → (engine : σ) → (start : Nat) → σ × Status
  | 0, _, engine, _                  => (engine, .success)
  | fuel + 1, content, engine, start =>
    if (content.drop start).isEmpty then (engine, .success)
    else
      let start := mainSkipWhitespace content start
      if (content.drop start).isEmpty then (engine, .success)
      else
        let terminatorIndex := utilsFindStatementTerminator content start
        if terminatorIndex = -1 then (engine, .success)
        else
          match utilsSubstring content start (toSizeT (terminatorIndex - start + 1)) with
          | none           => (engine, .failure)
          | some statement =>
            mainFileLoop fuel content (mainProcessSqlStatement execute engine statement)
              (toSizeT (terminatorIndex + 1))

/-- `main_run_file_mode` on a file with these bytes. -/
def mainRunFileMode (engine : σ) (file : CString) : σ × Status :=
  mainFileLoop execute (cView file).length (cView file) engine 0

/-! ### Interactive mode -/

/-- `main_trimmed_equals` -/
def mainTrimmedEquals (line keyword : CString) : Bool :=
  utilsEqualsIgnoreCase (utilsTrim line) keyword

/-- `main_replace_buffer_with_remainder` -/
def mainReplaceBufferWithRemainder (buffer : CString) (endIndex : Int) : CString :=
  utilsTrim (buffer.drop (endIndex + 1).toNat)

/-- The inner loop of `main_run_repl_mode`: the statements that the buffer holds whole are run. -/
def mainDrainBuffer : (fuel : Nat) → (engine : σ) → (buffer : CString) → σ × CString × Status
  | 0, engine, buffer        => (engine, buffer, .success)
  | fuel + 1, engine, buffer =>
    let terminatorIndex := utilsFindStatementTerminator buffer 0
    if terminatorIndex = -1 then (engine, buffer, .success)
    else
      match utilsSubstring buffer 0 (toSizeT (terminatorIndex + 1)) with
      | none           => (engine, buffer, .failure)
      | some statement =>
        let engine := mainProcessSqlStatement execute engine statement
        let buffer := mainReplaceBufferWithRemainder buffer terminatorIndex
        if buffer.isEmpty then (engine, buffer, .success) else mainDrainBuffer fuel engine buffer

/-- The outer loop of `main_run_repl_mode`; a `NULL` buffer is the empty one. -/
def mainReplLoop : (fuel : Nat) → (engine : σ) → (buffer stdin : CString) → σ × Status
  | 0, engine, _, _                     => (engine, .success)
  | _ + 1, engine, _, []                => (engine, .success)
  | fuel + 1, engine, buffer, b :: stdin =>
    let line := cView (fgets (maxSqlLength - 1) (b :: stdin)).1
    if buffer.isEmpty && (mainTrimmedEquals line (bytes "exit") ||
        mainTrimmedEquals line (bytes "quit")) then
      (engine, .success)
    else
      let buffer := utilsAppendBuffer buffer line
      match mainDrainBuffer execute buffer.length engine buffer with
      | (engine, _, .failure)      => (engine, .failure)
      | (engine, buffer, .success) =>
        mainReplLoop fuel engine buffer (fgets (maxSqlLength - 1) (b :: stdin)).2

/-- `main_run_repl_mode` with these bytes on the standard input. -/
def mainRunReplMode (engine : σ) (stdin : CString) : σ × Status :=
  mainReplLoop execute stdin.length engine [] stdin

end

/-- The engine that writes down the texts passed to `db_execute_sql`. -/
def recordCall (calls : List CString) (sql : CString) : List CString := calls ++ [sql]

end MiniDbms
