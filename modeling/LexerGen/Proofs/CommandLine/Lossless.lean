import LexerGen.Proofs.CommandLine.Program
import LexerGen.Proofs.Lex
import LexerGen.Proofs.Text.Delimited
import Mathlib.Data.List.Permutation

/-!
# What the output says of the input

A line for a token shows the name as it stands. A name may hold tabs and line feeds, so where the
lines of an output begin and end cannot be told from its beginning. It can be told from its end:
quoted text holds no tab, so the last tab stands in front of the last lexeme. And where the line
begins is known with the lexeme, since the name of a token is that of the first rule that matches
its lexeme, wherever in the text that is. So lines are self-delimiting if they are read backwards
(`selfDelimiting_reverse_tokenLine`), and an output is that of one list of tokens
(`flatMap_tokenLine_inj`).

What a run prints are the lines of the tokens that were found (`printItems_tokens`), up to the
failure if there is one (`printItems_failure`).
-/

namespace LexerGen

open Text

variable {rules : List (String × Regex)} {tokens : List (String × String)} {lexer : Lexer}
  {toks toks' : List Token}

/-- **The tokens that are found in a text** before the failure, if there is one. -/
def Lexer.found (lexer : Lexer) (text : List Char) : List Token :=
  (lexer.scan text).items.filterMap Except.toOption

/-- **All that is found in a text** is named by the rules. It covers the text unless there is a
failure. -/
theorem Lexer.found_cases (hd : Recognizes lexer.dfa rules) (text : List Char) :
    (∀ tok ∈ lexer.found text, FirstMatch rules tok.lexeme tok.name) ∧
    ((lexer.scan text).items = (lexer.found text).map .ok ∧
        lexer.lex text = .ok (lexer.found text) ∧
        (lexer.found text).flatMap Token.lexeme = text ∨
      ∃ e, (lexer.scan text).items = (lexer.found text).map .ok ++ [.error e] ∧
        lexer.lex text = .error e) := by
  obtain ⟨toks, rest, htoks, ⟨rfl, hitems⟩ | ⟨e, hitems, -⟩⟩ := items_scan hd text
  · have hfound : lexer.found text = toks := by
      rw [found, hitems, List.filterMap_map]
      exact List.filterMap_some
    rw [hfound]
    refine ⟨htoks.firstMatch, .inl ⟨hitems, ?_, ?_⟩⟩
    · rw [lex, hitems, Scanner.collect_tokens]
    · rw [htoks.text_eq, List.append_nil]
  · have hfound : lexer.found text = toks := by
      rw [found, hitems, List.filterMap_append, List.filterMap_map]
      exact (List.append_nil _).trans List.filterMap_some
    rw [hfound]
    refine ⟨htoks.firstMatch, .inr ⟨e, hitems, ?_⟩⟩
    rw [lex, hitems, Scanner.collect_failure]

namespace CommandLine

/-! ### Lines -/

/-- A line read backwards: the lexeme, the last tab and the name. -/
theorem reverse_tokenLine (tok : Token) : (tokenLine tok).reverse =
    ('\n' :: (quoted tok.lexeme).reverse) ++ ['\t'] ++ tok.name.toList.reverse := by
  simp [tokenLine]

/-- **Lines that are read backwards are self-delimiting**, if the rules name the tokens. -/
theorem selfDelimiting_reverse_tokenLine (rules : List (String × Regex)) :
    SelfDelimiting (fun tok : Token => FirstMatch rules tok.lexeme tok.name)
      fun tok => (tokenLine tok).reverse := by
  intro tok tok' hname hname' u v h
  have hno : ∀ s, '\t' ∉ '\n' :: (quoted s).reverse := by
    intro s
    rw [List.mem_cons, List.mem_reverse, not_or]
    exact ⟨by decide, tab_not_mem_quoted s⟩
  simp only [reverse_tokenLine, List.append_assoc] at h
  rw [← List.append_assoc, ← List.append_assoc ('\n' :: _)] at h
  -- up to the tab stand the lexemes, and these know the names
  obtain ⟨hquoted, hrest⟩ := selfDelimiting_until '\t' _ _ (hno _) (hno _) _ _ h
  have hlexeme : tok.lexeme = tok'.lexeme := by
    refine (selfDelimiting_quoted _ _ trivial trivial [] [] ?_).1
    rw [List.reverse_injective (List.cons.inj hquoted).2]
  rw [← hlexeme] at hname'
  obtain ⟨name, lexeme⟩ := tok
  obtain ⟨name', lexeme'⟩ := tok'
  obtain rfl : name = name' := hname.unique hname'
  obtain rfl : lexeme = lexeme' := hlexeme
  exact ⟨rfl, List.append_cancel_left hrest⟩

/-- **An output is that of one list of tokens**, if the rules name them. -/
theorem flatMap_tokenLine_inj
    (hname : ∀ tok ∈ toks, FirstMatch rules tok.lexeme tok.name)
    (hname' : ∀ tok ∈ toks', FirstMatch rules tok.lexeme tok.name)
    (h : toks.flatMap tokenLine = toks'.flatMap tokenLine) : toks = toks' := by
  have hclosing : Closing (fun tok : Token => FirstMatch rules tok.lexeme tok.name)
      (fun tok => (tokenLine tok).reverse) [] := by
    intro tok _ s hs
    have hnil : (tokenLine tok).reverse = [] := (List.append_eq_nil_iff.1 hs).1
    rw [reverse_tokenLine] at hnil
    cases hnil
  -- backwards, the last tokens come first
  have hreverse := congrArg List.reverse h
  rw [List.reverse_flatMap, List.reverse_flatMap] at hreverse
  refine List.reverse_injective ((selfDelimiting_reverse_tokenLine rules).flatMap_inj ?_ ?_
    hclosing hclosing (congrArg (· ++ []) hreverse)).1
  · exact fun tok htok => hname tok (List.mem_reverse.1 htok)
  · exact fun tok htok => hname' tok (List.mem_reverse.1 htok)

/-! ### What is printed -/

theorem printItems_tokens (toks : List Token) :
    printItems (toks.map .ok) = ⟨toks.flatMap tokenLine, none⟩ := by
  induction toks with
  | nil => rfl
  | cons tok toks ih => rw [List.map_cons, printItems, ih]; rfl

theorem printItems_failure (toks : List Token) (e : LexError)
    (more : List (Except LexError Token)) :
    printItems (toks.map .ok ++ .error e :: more) =
      ⟨toks.flatMap tokenLine, some ⟨e.message, []⟩⟩ := by
  induction toks with
  | nil => rfl
  | cons tok toks ih => rw [List.map_cons, List.cons_append, printItems, ih]; rfl

/-! ### Runs -/

variable {args : List String} {read : Source → Except ReadError String} {input : ByteArray}
  {text : String}

/-- The source that options name. -/
def Options.source (o : Options) : Source :=
  match o.file with
  | some path => .file path
  | none => .standardInput

/-- **Without another mode the source is read** and its tokens are printed. -/
theorem Options.run_eq_tokenize {o : Options} (h : Lexer.compile o.tokens = .ok lexer)
    (hprenex : o.prenex = false) (hdot : o.dot = none) :
    o.run read = tokenize lexer o.source (read o.source) := by
  have htask : o.task = .tokenizes lexer o.source := by
    rw [task, hprenex, h, hdot]
    rfl
  rw [run, htask]

/-- A file that is missing is named, and nothing is printed. -/
theorem Started.report_of_missing {o : Options} {logged : Bool} {sources : Sources}
    {path : String} (h : Started args o logged) (hcompile : Lexer.compile o.tokens = .ok lexer)
    (hprenex : o.prenex = false) (hdot : o.dot = none) (hfile : o.file = some path)
    (hmissing : sources.files.lookup path = none) :
    (run args sources.read).code = 1 ∧ (run args sources.read).output.toList = [] ∧
      (run args sources.read).error = if logged then
        some ("Error reading " ++ quotedString path ++ "\n\nCaused by:\n    " ++
          (ReadError.refused (.ofPath path)).message) else none := by
  have hsource : o.source = .file path := by
    rw [Options.source, hfile]
  have hread : sources.read (.file path) = .error (.refused (.ofPath path)) := by
    rw [Sources.read, hmissing]
  have hrun : o.run sources.read = ⟨[], some ⟨"Error reading " ++ quotedString path,
      [(ReadError.refused (.ofPath path)).message]⟩⟩ := by
    rw [Options.run_eq_tokenize hcompile hprenex hdot, hsource, hread]
    rfl
  rw [h.code_eq, h.output_eq, h.error_eq, hrun]
  refine ⟨rfl, rfl, ?_⟩
  rw [Option.map_some, text_of_cause]

/-- **A run that tokenizes an input.** The arguments give the definitions, neither of the other
modes and no log filter that cannot be used, and the source holds a text, encoded as `input`. -/
structure TokenRun (tokens : List (String × String)) (args : List String)
    (read : Source → Except ReadError String) (input : ByteArray) (text : String) : Prop where
  options : ∃ o directives, Request.ofArgs args = .ok (.run o) ∧
    o.tokens = tokens ∧ o.prenex = false ∧ o.dot = none ∧
    logDirectives (o.logFilter.getD "warn") = .ok directives ∧ read o.source = decodeText input
  text : decodeText input = .ok text

/-- **What a run that tokenizes comes to** is what is printed of the scan. -/
theorem TokenRun.exists_started (hrun : TokenRun tokens args read input text)
    (h : Lexer.compile tokens = .ok lexer) : ∃ o logged, Started args o logged ∧
      o.run read = printItems (lexer.scan text.toList).items := by
  obtain ⟨o, directives, hargs, rfl, hprenex, hdot, hfilter, hread⟩ := hrun.options
  refine ⟨o, _, ⟨hargs, directives, hfilter, rfl⟩, ?_⟩
  rw [Options.run_eq_tokenize h hprenex hdot, hread, hrun.text]
  rfl

/-- **What a run that tokenizes leaves behind**: the lines of the tokens that are found, and the
exit code that says whether these are all. -/
theorem TokenRun.report_cases (hrun : TokenRun tokens args read input text)
    (h : Lexer.compile tokens = .ok lexer) (hd : Recognizes lexer.dfa rules) :
    (run args read).output.toList = (lexer.found text.toList).flatMap tokenLine ∧
    ((lexer.scan text.toList).items = (lexer.found text.toList).map .ok ∧
        lexer.lex text.toList = .ok (lexer.found text.toList) ∧ (run args read).code = 0 ∧
        (lexer.found text.toList).flatMap Token.lexeme = text.toList ∨
      ∃ e, (lexer.scan text.toList).items = (lexer.found text.toList).map .ok ++ [.error e] ∧
        lexer.lex text.toList = .error e ∧ (run args read).code = 1) := by
  obtain ⟨o, logged, hstarted, houtcome⟩ := hrun.exists_started h
  rw [hstarted.output_eq, hstarted.code_eq, houtcome]
  obtain ⟨-, ⟨hitems, hlex, htext⟩ | ⟨e, hitems, hlex⟩⟩ := Lexer.found_cases hd text.toList
  · rw [hitems, printItems_tokens]
    exact ⟨rfl, .inl ⟨rfl, hlex, rfl, htext⟩⟩
  · rw [hitems, printItems_failure]
    exact ⟨rfl, .inr ⟨e, rfl, hlex, rfl⟩⟩

/-- The exit code says whether the text can be cut into tokens. -/
theorem TokenRun.code_eq_zero_iff (hrun : TokenRun tokens args read input text)
    (h : Lexer.compile tokens = .ok lexer) (hd : Recognizes lexer.dfa rules) :
    (run args read).code = 0 ↔ ∃ toks, lexer.lex text.toList = .ok toks := by
  obtain ⟨-, ⟨-, hlex, hcode, -⟩ | ⟨e, -, hlex, hcode⟩⟩ := hrun.report_cases h hd
  · exact iff_of_true hcode ⟨_, hlex⟩
  · rw [hcode, hlex]
    refine iff_of_false (by decide) ?_
    rintro ⟨toks, htoks⟩
    cases htoks

/-- Where a run succeeds, the lexemes are the text. -/
theorem TokenRun.text_eq (hrun : TokenRun tokens args read input text)
    (h : Lexer.compile tokens = .ok lexer) (hd : Recognizes lexer.dfa rules)
    (hcode : (run args read).code = 0) :
    text.toList = (lexer.found text.toList).flatMap Token.lexeme := by
  obtain ⟨-, ⟨-, -, -, htext⟩ | ⟨e, -, -, hfailed⟩⟩ := hrun.report_cases h hd
  · exact htext.symm
  · rw [hfailed] at hcode
    cases hcode

/-- A text has one encoding. -/
theorem decodeText_inj {input' : ByteArray} (h : decodeText input = .ok text)
    (h' : decodeText input' = .ok text) : input = input' := by
  have hbytes : ∀ bytes, decodeText bytes = .ok text → text.toByteArray = bytes := by
    intro bytes hbytes
    unfold decodeText String.fromUTF8? at hbytes
    by_cases hvalid : bytes.IsValidUTF8
    · rw [dif_pos hvalid] at hbytes
      cases hbytes
      rfl
    · rw [dif_neg hvalid] at hbytes
      cases hbytes
  exact (hbytes input h).symm.trans (hbytes input' h')

/-- **The output is lossless.** A run succeeds if the whole text can be cut into tokens, and it
prints the lines of the tokens that are found, which are all up to the failure if there is one. Runs
that print the same have found the same tokens, and if they succeed they had the same input. -/
theorem output_lossless (h : Lexer.compile tokens = .ok lexer) :
    (∀ args read input text, TokenRun tokens args read input text →
      ((run args read).code = 0 ↔ ∃ toks, lexer.lex text.toList = .ok toks) ∧
      (run args read).output.toList = (lexer.found text.toList).flatMap tokenLine ∧
      ((lexer.scan text.toList).items = (lexer.found text.toList).map .ok ∨
        ∃ e, (lexer.scan text.toList).items = (lexer.found text.toList).map .ok ++ [.error e] ∧
          lexer.lex text.toList = .error e ∧ (run args read).code = 1)) ∧
    ∀ args args' read read' input input' text text',
      TokenRun tokens args read input text → TokenRun tokens args' read' input' text' →
      (run args read).output = (run args' read').output →
      lexer.found text.toList = lexer.found text'.toList ∧
      (lexer.found text.toList).flatMap Token.lexeme =
        (lexer.found text'.toList).flatMap Token.lexeme ∧
      ((run args read).code = 0 → (run args' read').code = 0 → input = input') := by
  obtain ⟨rules, -, hd⟩ := Lexer.recognizes_of_compile h
  refine ⟨?_, ?_⟩
  · intro args read input text hrun
    obtain ⟨houtput, hcases⟩ := hrun.report_cases h hd
    exact ⟨hrun.code_eq_zero_iff h hd, houtput, hcases.imp_left And.left⟩
  · intro args args' read read' input input' text text' hrun hrun' heq
    have hlines : (lexer.found text.toList).flatMap tokenLine =
        (lexer.found text'.toList).flatMap tokenLine := by
      rw [← (hrun.report_cases h hd).1, ← (hrun'.report_cases h hd).1, heq]
    have hfound : lexer.found text.toList = lexer.found text'.toList :=
      flatMap_tokenLine_inj (Lexer.found_cases hd _).1 (Lexer.found_cases hd _).1 hlines
    refine ⟨hfound, congrArg _ hfound, ?_⟩
    intro hcode hcode'
    have htext : text = text' := by
      rw [← String.toList_inj, hrun.text_eq h hd hcode, hrun'.text_eq h hd hcode', hfound]
    subst htext
    exact decodeText_inj hrun.text hrun'.text

/-- One text from two sources, the second of which is given by its bytes. The name of its tokens
has a tab. -/
theorem output_lossless_two_sources :
    ∃ lexer, Lexer.compile [("A\tB", "a")] = .ok lexer ∧
      TokenRun [("A\tB", "a")] ["-t", "A\tB=a"] (fun _ => decodeText "aa".toByteArray)
        "aa".toByteArray "aa" ∧
      TokenRun [("A\tB", "a")] ["--token=A\tB=a", "f"] (fun _ => decodeText ⟨#[97, 97]⟩)
        ⟨#[97, 97]⟩ "aa" ∧
      (run ["-t", "A\tB=a"] fun _ => decodeText "aa".toByteArray).code = 0 ∧
      (run ["--token=A\tB=a", "f"] fun _ => decodeText ⟨#[97, 97]⟩).code = 0 ∧
      "aa".toByteArray = ⟨#[97, 97]⟩ := by
  have hscan : (Lexer.compile [("A\tB", "a")]).map (fun lexer => lexer.lex ['a', 'a']) =
      .ok (.ok [⟨"A\tB", ['a']⟩, ⟨"A\tB", ['a']⟩]) := by cbv
  obtain ⟨lexer, hlexer, hlex⟩ := map_eq_ok.1 hscan
  have hfilter : logDirectives "warn" = .ok [⟨none, none, none, .warn⟩] := rfl
  have hargs : Request.ofArgs ["-t", "A\tB=a"] = .ok (.run { tokens := [("A\tB", "a")] }) := rfl
  have hargs' : Request.ofArgs ["--token=A\tB=a", "f"] =
      .ok (.run { tokens := [("A\tB", "a")], file := some "f" }) := rfl
  have hrun : TokenRun [("A\tB", "a")] ["-t", "A\tB=a"] (fun _ => decodeText "aa".toByteArray)
      "aa".toByteArray "aa" :=
    ⟨⟨_, _, hargs, rfl, rfl, rfl, hfilter, rfl⟩, rfl⟩
  have hrun' : TokenRun [("A\tB", "a")] ["--token=A\tB=a", "f"]
      (fun _ => decodeText ⟨#[97, 97]⟩) ⟨#[97, 97]⟩ "aa" :=
    ⟨⟨_, _, hargs', rfl, rfl, rfl, hfilter, rfl⟩, rfl⟩
  obtain ⟨hone, htwo⟩ := output_lossless hlexer
  obtain ⟨hiff, houtput, -⟩ := hone _ _ _ _ hrun
  obtain ⟨hiff', houtput', -⟩ := hone _ _ _ _ hrun'
  have hcode := hiff.2 ⟨_, hlex⟩
  have hcode' := hiff'.2 ⟨_, hlex⟩
  have hsame := String.toList_injective (houtput.trans houtput'.symm)
  obtain ⟨-, -, hinput⟩ := htwo _ _ _ _ _ _ _ _ hrun hrun' hsame
  exact ⟨lexer, hlexer, hrun, hrun', hcode, hcode', hinput hcode hcode'⟩

end CommandLine

end LexerGen
