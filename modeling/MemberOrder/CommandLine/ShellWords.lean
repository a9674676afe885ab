import MemberOrder.Text.Basic

/-!
Splitting a command line into words: white space divides words, quotes and backslashes join them.
Inside double quotes a backslash stands for itself unless a quote or backslash follows.
-/

set_option autoImplicit false

namespace MemberOrder.ShellWords

inductive SplitError
  | unclosedQuote
  | nothingEscaped
deriving DecidableEq

def SplitError.message : SplitError → String
  | .unclosedQuote => "No closing quotation"
  | .nothingEscaped => "No escaped character"

/-- Where the reader is: between words, in one, in a quoted part of one, or behind a backslash,
which may stand in double quotes. -/
inductive Position
  | between
  | inWord
  | inQuotes (quote : Char)
  | escaped (quoted : Bool)
deriving DecidableEq

def isDivider (c : Char) : Bool := c == ' ' || c == '\t' || c == '\r' || c == '\n'

def isQuote (c : Char) : Bool := c == '\'' || c == '"'

/-- Reads words from a position on; `word` is what has been read of one, its last character
first. -/
def wordsFrom (position : Position) (word : Text) : Text → Except SplitError (List Text)
  | [] =>
    match position with
    | .between => .ok []
    | .inWord => .ok [word.reverse]
    | .inQuotes _ => .error .unclosedQuote
    | .escaped _ => .error .nothingEscaped
  | c :: rest =>
    match position with
    | .between =>
      if isDivider c then wordsFrom .between [] rest
      else if c = '\\' then wordsFrom (.escaped false) [] rest
      else if isQuote c then wordsFrom (.inQuotes c) [] rest
      else wordsFrom .inWord [c] rest
    | .inWord =>
      if isDivider c then (wordsFrom .between [] rest).map (word.reverse :: ·)
      else if c = '\\' then wordsFrom (.escaped false) word rest
      else if isQuote c then wordsFrom (.inQuotes c) word rest
      else wordsFrom .inWord (c :: word) rest
    | .inQuotes quote =>
      if c = quote then wordsFrom .inWord word rest
      else if c = '\\' && quote = '"' then wordsFrom (.escaped true) word rest
      else wordsFrom (.inQuotes quote) (c :: word) rest
    | .escaped quoted =>
      if quoted then
        wordsFrom (.inQuotes '"')
          (if c = '"' || c = '\\' then c :: word else c :: '\\' :: word) rest
      else wordsFrom .inWord (c :: word) rest

def split (t : Text) : Except SplitError (List Text) := wordsFrom .between [] t

end MemberOrder.ShellWords
