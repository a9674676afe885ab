import MemberOrder.Shell.Format
import MemberOrder.Shell.Pattern
import MemberOrder.Shell.Utility.Basic

/-!
Programs that read texts and write texts.
-/

set_option autoImplicit false

namespace MemberOrder.Shell.Utility

/-- Joins statuses: the worst one counts. -/
def worst (statuses : List Nat) : Nat := statuses.foldl max 0

/-- The operands, or the input if there are none. -/
def sources (operands : List Text) : List Text := if operands.isEmpty then [['-']] else operands

/-- Is the file that is read the one that is written, with something left to read? -/
def feedsItself (path : Text) : Action Bool := do
  match ← fileOf outputDescriptor with
  | none => return false
  | some output =>
    let (input, position) ←
      if path = ['-'] then
        match ← channel? inputDescriptor with
        | some (_, .file i position _ _ _) => pure (some i, position)
        | _ => pure (none, 0)
      else
        match ← find path with
        | .ok (i, _) => pure (some i, 0)
        | .error _ => pure (none, 0)
    let size := ((contents? (← get).files output).getD []).length
    return input = some output && position < size

/-- Numbers lines from `first` on. -/
def numbered (first : Nat) (t : Text) : Text :=
  (lines t).zipIdx first |>.flatMap fun (line, n) =>
    Text.padLeft 6 (Octets.ofNat n) ++ '\t' :: line

/-- Writes files one after the other. Without an output none is looked at. -/
def cat (arguments : List Text) : Action Nat :=
  withArguments "cat" "nu" "" arguments fun arguments => do
    if (← channel? outputDescriptor).isNone then
      return ← complain "cat" "standard output: Bad file descriptor".toList
    let statuses ← (sources arguments.operands).mapM fun path => do
      if ← feedsItself path then
        return ← complain "cat" (shown path ++ ": input file is output file".toList)
      match ← contents path with
      | .ok t =>
        print (if arguments.has 'n' then numbered 1 t else t)
        return 0
      | .error e => complain "cat" (shown path ++ ": ".toList ++ e.description.toList)
    let fromInput := (sources arguments.operands).contains ['-']
    if fromInput && (← channel? inputDescriptor).isNone then
      return ← complain "cat" "closing standard input: Bad file descriptor".toList
    return worst statuses

/-- How much of a text is kept: so many units, or all but so many, or all from a unit on. -/
inductive Extent
  | first (n : Nat)
  | butLast (n : Nat)
  | last (n : Nat)
  | startingAt (n : Nat)

def Extent.of {α : Type} (units : List α) : Extent → List α
  | .first n => units.take n
  | .butLast n => units.take (units.length - n)
  | .last n => units.drop (units.length - n)
  | .startingAt n => units.drop (n - 1)

/-- The extent that a number stands for. -/
def extent? (fromEnd : Bool) (t : Text) : Option Extent :=
  let number (digits : Text) (f : Nat → Extent) : Option Extent :=
    if !digits.isEmpty && digits.all Char.isDigit then
      some (f (Arithmetic.readDigits 10 digits).1)
    else none
  match fromEnd, t with
  | false, '-' :: digits => number digits .butLast
  | false, _ => number t .first
  | true, '+' :: digits => number digits .startingAt
  | true, '-' :: digits => number digits .last
  | true, _ => number t .last

/-- An argument that is a count of lines of its own. -/
def isCount (fromEnd : Bool) : Text → Bool
  | '-' :: digits => !digits.isEmpty && digits.all Char.isDigit
  | '+' :: digits => fromEnd && !digits.isEmpty && digits.all Char.isDigit
  | _ => false

/-- Arguments with such a count as an option. -/
def withCount (fromEnd : Bool) : List Text → List Text
  | [] => []
  | first :: rest =>
    if isCount fromEnd first then
      let count := if first.head? = some '-' then first.drop 1 else first
      ['-', 'n'] :: count :: rest
    else first :: rest

/-- Writes the first or the last part of files. -/
def portion (program : String) (fromEnd : Bool) (arguments : List Text) : Action Nat :=
  withArguments program "qv" "nc" (withCount fromEnd arguments) fun arguments => do
    let (unit, count) := match arguments.value? 'n', arguments.value? 'c' with
      | some n, _ => ("lines", n)
      | none, some n => ("bytes", n)
      | none, none => ("lines", ['1', '0'])
    match extent? fromEnd count with
    | none =>
      complain program ("invalid number of ".toList ++ unit.toList ++ ": ".toList ++ cited count)
    | some extent =>
      let paths := sources arguments.operands
      let titled := (paths.length > 1 || arguments.has 'v') && !arguments.has 'q'
      let showOne (first : Bool) (path : Text) : Action Nat := do
        let title : Text := if titled then
            (if first then [] else ['\n']) ++ "==> ".toList
              ++ (if path = ['-'] then "standard input".toList else path) ++ " <==\n".toList
          else []
        match ← contents path with
        | .ok t =>
          print (title ++ if unit = "lines" then (extent.of (lines t)).flatten else extent.of t)
          return 0
        | .error .isDirectory =>
          print title
          complain program ("error reading ".toList ++ quoted path ++ ": Is a directory".toList)
        | .error e =>
          complain program
            ("cannot open ".toList ++ quoted path ++ " for reading: ".toList
              ++ e.description.toList)
      let statuses ← paths.zipIdx.mapM fun (path, i) => showOne (i = 0) path
      return worst statuses

/-- How many lines, words and bytes a text has. -/
def counts (t : Text) : List Nat :=
  let words := (t.splitBy fun a b => Format.isSpace a == Format.isSpace b).filter fun run =>
    (run.head?.map Format.isSpace).getD true = false
  [t.count '\n', words.length, t.length]

/-- Counts lines, words and bytes. -/
def wc (arguments : List Text) : Action Nat :=
  withArguments "wc" "lwcm" "" arguments fun arguments => do
    let chosen := [arguments.has 'l', arguments.has 'w', arguments.has 'c' || arguments.has 'm']
    let chosen := if chosen.any id then chosen else [true, true, true]
    let pick (counts : List Nat) : List Nat :=
      (counts.zip chosen).filterMap fun (n, isChosen) => if isChosen then some n else none
    let results ← (sources arguments.operands).mapM fun path => do
      match ← contents path with
      | .ok t => return (some (counts t), path, none)
      | .error .isDirectory =>
        return (some [0, 0, 0], path, some FileError.isDirectory)
      | .error e => return (none, path, some e)
    let found := results.filterMap (·.1)
    let total := found.foldl (fun sums counts => sums.zipWith (· + ·) counts) [0, 0, 0]
    let isStream ← (do
      if arguments.operands.isEmpty || arguments.operands.contains ['-'] then
        return (← fileOf inputDescriptor).isNone
      return false)
    let width := if (pick [0, 0, 0]).length = 1 && results.length = 1 then 1
      else if isStream || results.any (·.2.2 == some .isDirectory) then 7
      else (Octets.ofNat (total[2]?.getD 0)).length
    let line (counts : List Nat) (name : Text) : Text :=
      Text.joined [' '] ((pick counts).map fun n => Text.padLeft width (Octets.ofNat n))
        ++ (if name.isEmpty then [] else ' ' :: name) ++ ['\n']
    let statuses ← results.mapM fun (counts, path, e) => do
      let status ← match e with
        | some e => complain "wc" (shown path ++ ": ".toList ++ e.description.toList)
        | none => pure 0
      if let some counts := counts then
        print (line counts (if arguments.operands.isEmpty then [] else shown path))
      return status
    if results.length > 1 then print (line total "total".toList)
    return worst statuses

/-- Writes the input to the output and to files. -/
def tee (arguments : List Text) : Action Nat :=
  withArguments "tee" "ai" "" arguments fun arguments => do
    let opened ← arguments.operands.mapM fun path => do
      match ← openFile (if arguments.has 'a' then .append else .clobber) path with
      | .ok channel => return (0, some (← addChannel channel))
      | .error e =>
        return (← complain "tee" (shown path ++ ": ".toList ++ e.description.toList), none)
    let t := (← readAll inputDescriptor).getD []
    print t
    for (_, channel) in opened do
      if channel.isSome then
        let session ← getSession
        modifySession (·.lead outputDescriptor channel)
        print t
        modifySession fun _ => session
    return worst (opened.map (·.1))

/-- The characters of a set: ranges, classes and escapes are written out. -/
def setCharacters : Nat → Text → Text
  | 0, _ => []
  | _, [] => []
  | fuel + 1, '[' :: ':' :: rest =>
    match kind? (':' :: rest) with
    | some (name, rest) =>
      ((List.range 256).map Char.ofNat).filter (isOfKind name) ++ setCharacters fuel rest
    | none => '[' :: setCharacters fuel (':' :: rest)
  | fuel + 1, c :: rest =>
    let (low, rest) := if c = '\\' then Format.escape rest else (c, rest)
    match rest with
    | '-' :: d :: others =>
      let (high, others) := if d = '\\' then Format.escape others else (d, others)
      ((List.range (high.toNat + 1)).drop low.toNat).map Char.ofNat ++ setCharacters fuel others
    | _ => low :: setCharacters fuel rest

/-- Drops repetitions of characters of a set. -/
def squeezed (set : Text) : Text → Text
  | [] => []
  | [c] => [c]
  | c :: d :: rest =>
    if c = d && set.contains c then squeezed set (d :: rest) else c :: squeezed set (d :: rest)

/-- Changes, deletes or squeezes characters. -/
def tr (arguments : List Text) : Action Nat :=
  withArguments "tr" "cCdst" "" arguments fun arguments => do
    let characters (t : Text) : Text := setCharacters t.length t
    let complement := arguments.has 'c' || arguments.has 'C'
    let inSet (set : Text) (c : Char) : Bool := set.contains c != complement
    match arguments.operands with
    | [] => misused "tr" "missing operand".toList
    | [first] =>
      if !arguments.has 'd' && !arguments.has 's' then
        misused "tr" ("missing operand after ".toList ++ cited first
          ++ "\nTwo strings must be given when translating.".toList)
      else
        let set := characters first
        let t := (← readAll inputDescriptor).getD []
        if arguments.has 'd' then print (t.filter fun c => !inSet set c)
        else print (squeezed (((List.range 256).map Char.ofNat).filter (inSet set)) t)
        return 0
    | [first, second] =>
      let set := characters first
      let others := characters second
      let t := (← readAll inputDescriptor).getD []
      if arguments.has 'd' && !arguments.has 's' then
        misused "tr" ("extra operand ".toList ++ cited second
          ++ "\nOnly one string may be given when deleting without squeezing repeats.".toList)
      else if arguments.has 'd' then
        print (squeezed others (t.filter fun c => !inSet set c))
        return 0
      else
        let last := others.getLast?.getD ' '
        let changed (c : Char) : Char :=
          if complement then (if set.contains c then c else last)
          else
            match (set.zipIdx.reverse.find? (·.1 == c)).map (·.2) with
            | some i => (others[i]?).getD last
            | none => c
        let t := t.map changed
        print (if arguments.has 's' then squeezed others t else t)
        return 0
    | _ :: _ :: third :: _ => misused "tr" ("extra operand ".toList ++ cited third)

/-- The number at the front of a line. -/
def leadingNumber (t : Text) : Float :=
  ((Format.readFloat (t.dropWhile Format.isSpace)).map (·.1)).getD 0

/-- Sorts lines. -/
def sort (arguments : List Text) : Action Nat :=
  withArguments "sort" "runs" "o" arguments fun arguments => do
    let texts ← (sources arguments.operands).mapM fun path => do
      return (path, ← contents path)
    let failed : Option (Text × FileError) := texts.findSome? fun (path, result) =>
      match result with
      | .error e => some (path, e)
      | .ok _ => none
    match failed with
    | some (path, .isDirectory) =>
      let _ ← complain "sort" ("read failed: ".toList ++ shown path ++ ": Is a directory".toList)
      return 2
    | some (path, e) =>
      let _ ← complain "sort"
        ("cannot read: ".toList ++ shown path ++ ": ".toList ++ e.description.toList)
      return 2
    | none =>
      let all := texts.flatMap fun (_, result) =>
        ((result.toOption.map lines).getD []).map fun line =>
          if line.getLast? = some '\n' then line.dropLast else line
      let order (a b : Text) : Ordering :=
        let numbers : Ordering := if arguments.has 'n' then
            (if leadingNumber a < leadingNumber b then .lt
              else if leadingNumber b < leadingNumber a then .gt else .eq)
          else .eq
        let both := numbers.then (Text.compareCodePoints a b)
        if arguments.has 'r' then both.swap else both
      let sorted := all.mergeSort fun a b => order a b != .gt
      let sorted := if arguments.has 'u' then sorted.eraseDups else sorted
      let t := sorted.flatMap (· ++ ['\n'])
      match arguments.value? 'o' with
      | none => print t
      | some path =>
        match ← openFile .clobber path with
        | .ok channel =>
          let number ← addChannel channel
          let session ← getSession
          modifySession (·.lead outputDescriptor (some number))
          print t
          modifySession fun _ => session
        | .error _ => pure ()
      return 0

/-- Writes numbers from one to another. -/
def seq (arguments : List Text) : Action Nat := do
  let number? (t : Text) : Option Int := Arithmetic.integer? true t
  match arguments.mapM number? with
  | none =>
    let bad := (arguments.find? fun t => (number? t).isNone).getD []
    misused "seq" ("invalid floating point argument: ".toList ++ cited bad)
  | some numbers =>
    let range (first step last : Int) : Action Nat := do
      let size := if step = 0 then 0 else ((last - first).fdiv step + 1).toNat
      print ((List.range size).flatMap fun (i : Nat) => Octets.ofInt (first + step * i) ++ ['\n'])
      return 0
    match numbers with
    | [] => misused "seq" "missing operand".toList
    | [last] => range 1 1 last
    | [first, last] => range first 1 last
    | [first, step, last] => range first step last
    | _ => misused "seq" ("extra operand ".toList ++ cited ((arguments[3]?).getD []))

/-- A path without the slashes at its end. -/
def withoutSlashes (path : Text) : Text :=
  let cut := (path.reverse.dropWhile (· = '/')).reverse
  if cut.isEmpty && !path.isEmpty then ['/'] else cut

/-- The last component of a path, without an ending. -/
def basename (arguments : List Text) : Action Nat := do
  let name (path : Text) : Text :=
    let path := withoutSlashes path
    if path = ['/'] then path else Text.lastPiece '/' path
  match arguments with
  | [] => misused "basename" "missing operand".toList
  | [path] =>
    print (name path ++ ['\n'])
    return 0
  | [path, ending] =>
    let name := name path
    let cut := name.take (name.length - ending.length)
    print ((if cut ++ ending = name && !cut.isEmpty then cut else name) ++ ['\n'])
    return 0
  | _ :: _ :: third :: _ => misused "basename" ("extra operand ".toList ++ cited third)

/-- The path without its last component. -/
def dirname (arguments : List Text) : Action Nat := do
  let above (path : Text) : Text :=
    let path := withoutSlashes path
    let before := (path.reverse.dropWhile (· != '/')).reverse
    if path = ['/'] then path
    else if before.isEmpty then ['.'] else withoutSlashes before
  if arguments.isEmpty then misused "dirname" "missing operand".toList
  else
    print (arguments.flatMap fun path => above path ++ ['\n'])
    return 0

/-- Waits, which takes no time here. -/
def sleep (arguments : List Text) : Action Nat := do
  let isInterval (t : Text) : Bool := match Format.readFloat t with
    | some (_, rest) => rest.isEmpty || [['s'], ['m'], ['h'], ['d']].contains rest
    | none => false
  match arguments with
  | [] => misused "sleep" "missing operand".toList
  | _ =>
    match arguments.find? fun t => !isInterval t with
    | some t => misused "sleep" ("invalid time interval ".toList ++ cited t)
    | none => return 0

end MemberOrder.Shell.Utility
