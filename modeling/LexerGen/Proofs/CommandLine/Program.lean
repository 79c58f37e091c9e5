import LexerGen.CommandLine.Run

/-!
# From arguments to options and back to a report

What the program does with its options (`Options.run`) is one thing, and what surrounds it is
another: arguments have to be read as options, and the outcome has to be shown. This is about the
surroundings. A run that gets as far as its options is `Started`, and then each part of the report
can be read off the outcome (`Started.code_eq`, `Started.output_eq`, `Started.error_eq`). Every
list of definitions gets there, in all modes, as long as its names can be written in front of a `=`
(`started_of_writable`).
-/

namespace LexerGen.CommandLine

variable {args : List String} {read : Source → Except ReadError String} {o : Options}
  {logged : Bool} {tokens : List (String × String)} {name pattern : String}

/-! ### The report on an outcome -/

/-- **A run with options**: the arguments ask for them, and the log filter can be used. The flag
says whether errors are logged. -/
structure Started (args : List String) (o : Options) (logged : Bool) : Prop where
  request : Request.ofArgs args = .ok (.run o)
  logging : ∃ directives, logDirectives (o.logFilter.getD "warn") = .ok directives ∧
    logsErrors programName directives = logged

namespace Started

theorem run_eq (h : Started args o logged) : run args read = (o.run read).report logged := by
  obtain ⟨directives, hdirectives, hlogged⟩ := h.logging
  -- the plan asks for the arguments first and for the filter then
  rw [run, plan, h.request]
  simp only [hdirectives, hlogged]

/-- The exit code says whether there is a failure. -/
theorem code_eq (h : Started args o logged) :
    (run args read).code = if (o.run read).failure.isSome then 1 else 0 := by
  rw [h.run_eq]
  rfl

theorem code_eq_zero_iff (h : Started args o logged) :
    (run args read).code = 0 ↔ (o.run read).failure = none := by
  rw [h.code_eq]
  cases (o.run read).failure with
  | none => exact iff_of_true rfl rfl
  | some failure => exact iff_of_false Nat.one_ne_zero nofun

/-- What is printed is the output, whether there is a failure or not. -/
theorem output_eq (h : Started args o logged) :
    (run args read).output.toList = (o.run read).output := by
  rw [h.run_eq]
  exact String.toList_ofList

/-- The failure is shown where errors are logged. -/
theorem error_eq (h : Started args o logged) : (run args read).error =
    if logged then (o.run read).failure.map Failure.text else none := by
  rw [h.run_eq]
  rfl

end Started

/-- Reports that show the same are the same. -/
theorem Report.eq_of_shown {r r' : Report} (hcode : r.code = r'.code)
    (houtput : r.output.toList = r'.output.toList) (herror : r.error = r'.error) : r = r' := by
  obtain ⟨code, error, output⟩ := r
  obtain rfl : code = r'.code := hcode
  obtain rfl : error = r'.error := herror
  obtain rfl : output = r'.output := String.toList_injective houtput
  rfl

/-- A cause that stands alone has no number. -/
theorem text_of_cause (message cause : String) :
    Failure.text ⟨message, [cause]⟩ = message ++ "\n\nCaused by:\n    " ++ cause := by
  rw [← String.toList_inj]
  simp [Failure.text, Failure.causeLines]

theorem causeLines_pair (first second : String) :
    Failure.causeLines [first, second] = ["    0: " ++ first, "    1: " ++ second] := by
  -- an interpolated text is put together of its parts
  have hzero : toString "    " ++ toString 0 ++ toString ": " = "    0: " := by decide
  have hone : toString "    " ++ toString 1 ++ toString ": " = "    1: " := by decide
  rw [← hzero, ← hone]
  rfl

/-- Two causes are numbered, the nearest with zero. -/
theorem text_of_causes (message first second : String) :
    Failure.text ⟨message, [first, second]⟩ =
      message ++ "\n\nCaused by:\n    0: " ++ first ++ "\n    1: " ++ second := by
  rw [Failure.text, causeLines_pair, ← String.toList_inj]
  simp

/-! ### Every list is reached -/

/-- The argument that gives a definition. -/
def definitionArg (token : String × String) : String := "-t=" ++ token.1 ++ "=" ++ token.2

/-- **A definition that can be written** has a name, and no `=` in it. -/
def Writable (token : String × String) : Prop := token.1 ≠ "" ∧ '=' ∉ token.1.toList

theorem splitAtEquals_append {cs value : List Char} (h : '=' ∉ cs) :
    splitAtEquals (cs ++ '=' :: value) = (cs, some value) := by
  -- the first part goes up to the first `=`, and there is none in `cs`
  have hne : ∀ c ∈ cs, (c != '=') = true := by
    intro c hc
    rw [bne_iff_ne]
    rintro rfl
    exact h hc
  rw [splitAtEquals, List.dropWhile_append_of_pos hne, List.takeWhile_append_of_pos hne]
  simp

theorem readToken_eq (h : Writable (name, pattern)) :
    readToken (name ++ "=" ++ pattern) = .ok (name, pattern) := by
  obtain ⟨hne, hequals⟩ := h
  have hsplit : splitAtEquals (name ++ "=" ++ pattern).toList =
      (name.toList, some pattern.toList) := by
    rw [← splitAtEquals_append hequals]
    simp
  obtain ⟨c, cs, hname⟩ : ∃ c cs, name.toList = c :: cs :=
    List.exists_cons_of_ne_nil fun hnil => hne (String.toList_eq_nil_iff.1 hnil)
  -- a name is refused only if it is empty
  rw [readToken, hsplit, hname]
  show Except.ok (String.ofList (c :: cs), String.ofList pattern.toList) = _
  rw [← hname, String.ofList_toList, String.ofList_toList]

/-- A definition that can be written is read. -/
theorem readArgs_definition {token : String × String} (h : Writable token) (more : List String) :
    readArgs o none (definitionArg token :: more) =
      readArgs { o with tokens := o.tokens ++ [token] } none more := by
  have harg : (definitionArg token).toList =
      '-' :: 't' :: '=' :: (token.1 ++ "=" ++ token.2).toList := by
    simp [definitionArg]
  have hform : Arg.ofText (definitionArg token).toList =
      .short ('t' :: '=' :: (token.1 ++ "=" ++ token.2).toList) := by
    rw [harg]
    rfl
  -- the value of a short option is what stands after its first `=`
  have hread : readArg o (definitionArg token) =
      .ok (.next { o with tokens := o.tokens ++ [token] }) := by
    rw [readArg, hform]
    show (o.setValue .token (String.ofList _)).map Progress.next = _
    rw [String.ofList_toList, Options.setValue, readToken_eq h]
    rfl
  rw [readArgs.eq_def]
  simp only [hform, hread]
  rfl

/-- **Definitions that can be written are read**, whatever comes after them. -/
theorem readArgs_definitions (h : ∀ token ∈ tokens, Writable token) (more : List String) :
    readArgs o none (tokens.map definitionArg ++ more) =
      readArgs { o with tokens := o.tokens ++ tokens } none more := by
  -- options that were read already are carried along
  induction tokens generalizing o with
  | nil => rw [List.append_nil]; rfl
  | cons token tokens ih =>
    obtain ⟨htoken, htokens⟩ := List.forall_mem_cons.1 h
    rw [List.map_cons, List.cons_append, readArgs_definition htoken, ih htokens, List.append_assoc]
    rfl

/-- **Every list of definitions that can be written reaches both kinds of modes.** -/
theorem started_of_writable (hne : tokens ≠ []) (h : ∀ token ∈ tokens, Writable token) :
    Started (tokens.map definitionArg ++ ["--prenex"]) { tokens, prenex := true } true ∧
    Started (tokens.map definitionArg ++ ["--dot", "nfa"]) { tokens, dot := some .nfa } true ∧
    Started (tokens.map definitionArg ++ ["--dot", "dfa"]) { tokens, dot := some .dfa } true ∧
    Started (tokens.map definitionArg ++ []) { tokens } true := by
  have hlogging : ∃ directives, logDirectives "warn" = .ok directives ∧
      logsErrors programName directives = true := ⟨_, rfl, rfl⟩
  cases tokens with
  | nil => exact absurd rfl hne
  | cons token tokens =>
    refine ⟨⟨?_, hlogging⟩, ⟨?_, hlogging⟩, ⟨?_, hlogging⟩, ⟨?_, hlogging⟩⟩
    -- after the definitions there are at most two words more, which are read as they stand
    all_goals
      rw [Request.ofArgs, readArgs_definitions h]
      rfl

end LexerGen.CommandLine
