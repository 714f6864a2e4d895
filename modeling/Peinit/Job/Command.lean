import Peinit.Lib.Fallible
import Peinit.Lib.Run

/-!
# Command lines

A command is split at whitespace, except between double quotes, which are dropped.
-/

namespace Peinit

open List

inductive ExecutableCommandParseError where
  | empty
  | unclosedDoubleQuote
  | relativeExecutable (executable : String)
  deriving DecidableEq

def isAsciiCommandWhitespace (ch : Char) : Bool :=
  ch = ' ' || ch = '\t' || ch = '\n' || ch = '\r' || ch = '\x0c' || ch = '\x0b'

/-- Where the loop over the characters is. -/
structure CommandSplit where
  argv : List String := []
  current : String := ""
  inQuote : Bool := false
  started : Bool := false

def CommandSplit.next (s : CommandSplit) (ch : Char) : CommandSplit :=
  if isAsciiCommandWhitespace ch && !s.inQuote then
    if s.started then { s with argv := s.argv ++ [s.current], current := "", started := false }
    else s
  else if ch = '"' then { s with inQuote := !s.inQuote, started := true }
  else { s with current := s.current.push ch, started := true }

def splitCommandArgv (command : String) : Except ExecutableCommandParseError (List String) :=
  let s := runCalls CommandSplit.next {} command.toList
  let argv := if s.started then s.argv ++ [s.current] else s.argv
  if s.inQuote then .error .unclosedDoubleQuote
  else if argv = [] then .error .empty
  else .ok argv

def parseExecutableCommand (command : String) :
    Except ExecutableCommandParseError (List String) := do
  match ← splitCommandArgv command with
  | [] => .error .empty
  | executable :: args =>
    if executable.toList.head? = some '/' then .ok (executable :: args)
    else .error (.relativeExecutable executable)

/-- The elements, each wrapped in double quotes, joined by spaces. -/
def quoteCommand (argv : List String) : String :=
  .ofList ([' '].intercalate (argv.map fun arg => '"' :: arg.toList ++ ['"']))

/-- No argument so far has a quote in it. -/
def CommandSplit.Unquoted (s : CommandSplit) : Prop :=
  ∀ arg ∈ s.current :: s.argv, '"' ∉ arg.toList

variable {s : CommandSplit} {arg command : String} {argv : List String}

theorem CommandSplit.Unquoted.next (unquoted : s.Unquoted) (ch : Char) : (s.next ch).Unquoted := by
  unfold CommandSplit.next
  split_ifs with blank started quote
  · intro arg mem
    simp only [mem_cons, mem_append, not_mem_nil, or_false] at mem
    rcases mem with rfl | old | rfl
    · simp
    · exact unquoted arg (mem_cons_of_mem _ old)
    · exact unquoted _ mem_cons_self
  · exact unquoted
  · exact unquoted
  · intro arg mem
    rcases mem_cons.mp mem with rfl | old
    · simpa [Ne.symm quote] using unquoted _ mem_cons_self
    · exact unquoted arg (mem_cons_of_mem _ old)

theorem splitCommandArgv_unquoted (ran : splitCommandArgv command = .ok argv) :
    ∀ arg ∈ argv, '"' ∉ arg.toList := by
  have unquoted : (runCalls CommandSplit.next {} command.toList).Unquoted :=
    invariant_of_calls _ (fun _ ch h => h.next ch) _ (by simp [CommandSplit.Unquoted])
  unfold splitCommandArgv at ran
  dsimp only at ran
  split_ifs at ran <;> cases ran
  · exact fun arg mem => unquoted arg (by simpa [or_comm] using mem)
  · exact fun arg mem => unquoted arg (mem_cons_of_mem _ mem)

theorem run_unquoted (chars : List Char) (plain : '"' ∉ chars) (done : List String) (current : String) :
    runCalls CommandSplit.next ⟨done, current, true, true⟩ chars =
      ⟨done, current ++ .ofList chars, true, true⟩ := by
  induction chars generalizing current with
  | nil => simp [runCalls]
  | cons ch rest ih =>
    obtain ⟨other, plain⟩ := ne_and_not_mem_of_not_mem_cons plain
    have taken : CommandSplit.next ⟨done, current, true, true⟩ ch =
        ⟨done, current.push ch, true, true⟩ := by
      simp [CommandSplit.next, Ne.symm other]
    rw [runCalls, foldl_cons, taken]
    exact (ih plain _).trans (by simp [← String.toList_inj])

theorem run_quoted (plain : '"' ∉ arg.toList) (done : List String) :
    runCalls CommandSplit.next { argv := done } ('"' :: arg.toList ++ ['"']) =
      ⟨done, arg, false, true⟩ := by
  have inside := run_unquoted arg.toList plain done ""
  rw [runCalls] at inside
  have opened : CommandSplit.next { argv := done } '"' = ⟨done, "", true, true⟩ := rfl
  rw [runCalls, cons_append, foldl_cons, opened, foldl_append, inside]
  simp [CommandSplit.next, isAsciiCommandWhitespace]

/-- Each quoted argument is closed by the space after it, the last one by the end. -/
theorem run_quoteCommand (rest : List String) (arg : String) (done : List String)
    (plain : ∀ other ∈ arg :: rest, '"' ∉ other.toList) :
    ∃ init last, init ++ [last] = done ++ arg :: rest ∧
      runCalls CommandSplit.next { argv := done } (quoteCommand (arg :: rest)).toList =
        ⟨init, last, false, true⟩ := by
  have first := run_quoted (plain arg mem_cons_self) done
  induction rest generalizing arg done with
  | nil => exact ⟨done, arg, rfl, by simpa [quoteCommand, intercalate] using first⟩
  | cons next rest ih =>
    have plain' : ∀ other ∈ next :: rest, '"' ∉ other.toList := fun other mem =>
      plain other (mem_cons_of_mem _ mem)
    obtain ⟨init, last, all, ran⟩ :=
      ih next (done ++ [arg]) plain' (run_quoted (plain' next mem_cons_self) _)
    refine ⟨init, last, by rw [all]; simp, ?_⟩
    have closed : CommandSplit.next ⟨done, arg, false, true⟩ ' ' = { argv := done ++ [arg] } := rfl
    have chars : (quoteCommand (arg :: next :: rest)).toList =
        '"' :: arg.toList ++ ['"'] ++ ' ' :: (quoteCommand (next :: rest)).toList := by
      simp [quoteCommand, intercalate]
    rw [runCalls] at first
    rw [chars, runCalls, foldl_append, first, foldl_cons, closed]
    exact ran

theorem parseExecutableCommand_quoteCommand (absolute : (argv.head?.bind (·.toList.head?)) = some '/')
    (plain : ∀ arg ∈ argv, '"' ∉ arg.toList) :
    parseExecutableCommand (quoteCommand argv) = .ok argv := by
  rcases argv with _ | ⟨arg, rest⟩
  · cases absolute
  · obtain ⟨init, last, all, ran⟩ := run_quoteCommand rest arg [] plain
    have split : splitCommandArgv (quoteCommand (arg :: rest)) = .ok (arg :: rest) := by
      simp [splitCommandArgv, ran, all]
    rw [parseExecutableCommand, split]
    exact if_pos absolute

theorem absolute_of_parseExecutableCommand (ran : parseExecutableCommand command = .ok argv) :
    argv.head?.bind (·.toList.head?) = some '/' ∧ ∀ arg ∈ argv, '"' ∉ arg.toList := by
  obtain ⟨_ | ⟨executable, args⟩, split, ran⟩ := bind_eq_ok.mp ran
  · cases ran
  · dsimp only at ran
    split_ifs at ran with absolute
    cases ran
    exact ⟨absolute, splitCommandArgv_unquoted split⟩

/-- What is quoted is read back, and what was accepted once is accepted again as the same command. -/
theorem command_round_trip : (∀ argv : List String, argv.head?.bind (·.toList.head?) = some '/' →
      (∀ arg ∈ argv, '"' ∉ arg.toList) → parseExecutableCommand (quoteCommand argv) = .ok argv) ∧
    ∀ command argv, parseExecutableCommand command = .ok argv →
      parseExecutableCommand (quoteCommand argv) = .ok argv := by
  refine ⟨fun argv => parseExecutableCommand_quoteCommand, fun command argv ran => ?_⟩
  obtain ⟨absolute, plain⟩ := absolute_of_parseExecutableCommand ran
  exact parseExecutableCommand_quoteCommand absolute plain

theorem command_round_trip_echo :
    parseExecutableCommand "/bin/echo a\" b\" \"\"" = .ok ["/bin/echo", "a b", ""] ∧
    parseExecutableCommand (quoteCommand ["/bin/echo", "a b", ""]) = .ok ["/bin/echo", "a b", ""] :=
  have ran : parseExecutableCommand "/bin/echo a\" b\" \"\"" = .ok ["/bin/echo", "a b", ""] := by
    decide +kernel
  ⟨ran, command_round_trip.2 _ _ ran⟩

end Peinit
