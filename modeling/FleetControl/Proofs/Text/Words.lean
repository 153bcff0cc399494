import FleetControl.Text.Shell

/-! # How a shell reads a command line

A POSIX shell cuts a line into words and operators and takes the quotes away. Outside of quotes a
character may begin an expansion, an operator or a comment, or end a word. A quoted text is read as
one word with exactly its characters, whatever they are. -/
namespace FleetControl.Shell

/-- A character of a word, as it stands or kept from its special meaning. -/
inductive Piece where
  | bare (c : Char)
  | quoted (c : Char)
  deriving DecidableEq

inductive Token where
  | word (pieces : List Piece)
  | operator (signs : List Char)
  deriving DecidableEq

/-- What the next character belongs to. -/
inductive Mode where
  | bare
  | single
  | double
  | escaped
  | escapedInDouble
  | operator (signs : List Char)
  | comment
  deriving DecidableEq

/-- The tokens that are complete, and the word that has begun. -/
structure Reader where
  done : List Token := []
  word : Option (List Piece) := none
  mode : Mode := .bare
  deriving DecidableEq

/-- The control and redirection operators; the end of a line is one of them. -/
def operators : List (List Char) :=
  ["&", "&&", "(", ")", ";", ";;", "\n", "|", "||", "<", ">", ">|", "<<", ">>", "<&", ">&", "<<-",
    "<>"].map String.toList

namespace Reader

def add (r : Reader) (p : Piece) : Reader := { r with word := some (r.word.getD [] ++ [p]) }

/-- A quote begins a word even if nothing stands in it. -/
def enter (r : Reader) (mode : Mode) : Reader := { r with word := some (r.word.getD []), mode }

def close (r : Reader) : Reader :=
  match r.word with
  | none => r
  | some pieces => { r with done := r.done ++ [.word pieces], word := none }

/-- A character outside of quotes. What a dollar sign or a backquote begins is not settled by the
text of the line. -/
def next (r : Reader) (c : Char) : Option Reader :=
  if c = '\'' then some (r.enter .single)
  else if c = '"' then some (r.enter .double)
  else if c = '\\' then some { r with mode := .escaped }
  else if c = '$' ∨ c = '\x60' then none
  else if [c] ∈ operators then some { r.close with mode := .operator [c] }
  else if c = ' ' ∨ c = '\t' then some r.close
  else if c = '#' ∧ r.word = none then some { r with mode := .comment }
  else some (r.add (.bare c))

def step (r : Reader) (c : Char) : Option Reader :=
  match r.mode with
  | .bare => r.next c
  | .single => if c = '\'' then some { r with mode := .bare } else some (r.add (.quoted c))
  | .double =>
    if c = '"' then some { r with mode := .bare }
    else if c = '\\' then some { r with mode := .escapedInDouble }
    else if c = '$' ∨ c = '\x60' then none
    else some (r.add (.quoted c))
  | .escaped =>
    let r := { r with mode := .bare }
    -- A line that ends in a backslash goes on with the next one.
    if c = '\n' then some r else some (r.add (.quoted c))
  | .escapedInDouble =>
    let r := { r with mode := .double }
    if c = '\n' then some r
    else if c = '$' ∨ c = '\x60' ∨ c = '"' ∨ c = '\\' then some (r.add (.quoted c))
    else some ((r.add (.quoted '\\')).add (.quoted c))
  | .operator signs =>
    -- An operator is as long as it can be.
    if signs ++ [c] ∈ operators then some { r with mode := .operator (signs ++ [c]) }
    else next { r with done := r.done ++ [.operator signs], mode := .bare } c
  | .comment => if c = '\n' then some { r with mode := .operator [c] } else some r

/-- The tokens of a line that ends here; a quote must not be open. -/
def finish (r : Reader) : Option (List Token) :=
  match r.mode with
  | .bare | .comment => some r.close.done
  | .operator signs => some (r.done ++ [.operator signs])
  | _ => none

def feed (r : Reader) (cs : List Char) : Option Reader := cs.foldlM step r

theorem feed_append (r : Reader) (cs ds : List Char) :
    r.feed (cs ++ ds) = (r.feed cs).bind (·.feed ds) := List.foldlM_append

end Reader

/-- A word as the command gets it, or an operator. -/
inductive Lexeme where
  | word (text : String)
  | operator (signs : String)
  deriving DecidableEq

def Piece.char : Piece → Char
  | bare c => c
  | quoted c => c

/-- Whether a shell goes on to expand a word with this in it: a pattern, a home directory or a list
in braces. -/
def Piece.expands : Piece → Bool
  | bare c => "*?[]~\x7b\x7d".toList.contains c
  | quoted _ => false

def Token.fixed? : Token → Option Lexeme
  | word pieces =>
    if pieces.any Piece.expands then none else some (.word (String.ofList (pieces.map Piece.char)))
  | operator signs => some (.operator (String.ofList signs))

/-- What a line says, if its text alone settles that. -/
def read? (line : String) : Option (List Lexeme) :=
  ((Reader.feed {} line.toList).bind Reader.finish).bind (·.mapM Token.fixed?)

/-- What is not quoted may be more than a word. -/
example : read? "rm -rf a\\ b;reboot" =
    some [.word "rm", .word "-rf", .word "a b", .operator ";", .word "reboot"] := by decide +kernel

example : read? "cat \"$HOME\"" = none ∧ read? "cat *" = none ∧ read? "cat 'a" = none := by
  decide +kernel

section Quote
variable {done : List Token} {word : Option (List Piece)} {pieces : List Piece} {c : Char}

theorem plain_ne (h : isPlain c = true) {d : Char} (hd : isPlain d = false) : c ≠ d := by
  rintro rfl
  rw [h] at hd
  cases hd

theorem step_plain (h : isPlain c = true) : Reader.step ⟨done, word, .bare⟩ c =
    some ⟨done, some (word.getD [] ++ [.bare c]), .bare⟩ := by
  have hoperator : [c] ∉ operators := by
    simp [operators, plain_ne h (d := '&') rfl, plain_ne h (d := '(') rfl,
      plain_ne h (d := ')') rfl, plain_ne h (d := ';') rfl, plain_ne h (d := '\n') rfl,
      plain_ne h (d := '|') rfl, plain_ne h (d := '<') rfl, plain_ne h (d := '>') rfl]
  simp only [Reader.step, Reader.next, if_neg hoperator, plain_ne h (d := '\'') rfl,
    plain_ne h (d := '"') rfl, plain_ne h (d := '\\') rfl, plain_ne h (d := '$') rfl,
    plain_ne h (d := '\x60') rfl, plain_ne h (d := ' ') rfl, plain_ne h (d := '\t') rfl,
    plain_ne h (d := '#') rfl, false_and, or_self, if_false]
  rfl

theorem feed_plain {cs : List Char} (h : cs.all isPlain = true) :
    Reader.feed ⟨done, some pieces, .bare⟩ cs =
      some ⟨done, some (pieces ++ cs.map .bare), .bare⟩ := by
  induction cs generalizing pieces with
  | nil => rw [List.map_nil, List.append_nil]; rfl
  | cons c cs ih =>
    rw [List.all_cons, Bool.and_eq_true] at h
    rw [Reader.feed, List.foldlM_cons, step_plain h.1]
    refine (ih h.2).trans ?_
    simp

theorem plain_expands (h : isPlain c = true) : (Piece.bare c).expands = false := by
  have hmem : c ∉ "*?[]~\x7b\x7d".toList := by
    simp [plain_ne h (d := '*') rfl, plain_ne h (d := '?') rfl, plain_ne h (d := '[') rfl,
      plain_ne h (d := ']') rfl, plain_ne h (d := '~') rfl, plain_ne h (d := '\x7b') rfl,
      plain_ne h (d := '\x7d') rfl]
  simpa [Piece.expands] using hmem

/-- A character inside single quotes steps outside of them if it has to. -/
theorem feed_escape (c : Char) : Reader.feed ⟨done, some pieces, .single⟩ (escape c) =
    some ⟨done, some (pieces ++ [.quoted c]), .single⟩ := by
  unfold escape
  split
  · rename_i hc
    rcases hc with rfl | rfl <;> rfl
  · rename_i hc
    have hquote : c ≠ '\'' := fun h => hc (Or.inl h)
    simp only [Reader.feed, List.foldlM_cons, Reader.step, if_neg hquote]
    rfl

theorem feed_escaped (cs : List Char) : Reader.feed ⟨done, some pieces, .single⟩
    (cs.flatMap escape) = some ⟨done, some (pieces ++ cs.map .quoted), .single⟩ := by
  induction cs generalizing pieces with
  | nil => rw [List.map_nil, List.append_nil]; rfl
  | cons c cs ih =>
    rw [List.flatMap_cons, Reader.feed_append, feed_escape, Option.bind_some, ih, List.map_cons,
      List.append_assoc, List.singleton_append]

/-- A quoted text is one word, and says what it said before. -/
theorem feed_quote (done : List Token) (text : String) : ∃ pieces,
    Reader.feed ⟨done, none, .bare⟩ (quote text).toList = some ⟨done, some pieces, .bare⟩ ∧
      Token.fixed? (.word pieces) = some (.word text) := by
  unfold quote
  dsimp only
  split
  · rename_i h
    obtain ⟨hne, hplain⟩ := h
    obtain ⟨c, cs, hcs⟩ := List.exists_cons_of_ne_nil (l := text.toList) (by simpa using hne)
    have hfixed : (text.toList.map Piece.bare).any Piece.expands = false := by
      rw [List.any_map, List.any_eq_false]
      intro c hc
      simpa using plain_expands (List.all_eq_true.mp hplain c hc)
    refine ⟨text.toList.map .bare, ?_, ?_⟩
    · rw [hcs, List.all_cons, Bool.and_eq_true] at hplain
      rw [hcs, Reader.feed, List.foldlM_cons, step_plain hplain.1]
      exact feed_plain hplain.2
    · rw [Token.fixed?, if_neg (by simp [hfixed]), List.map_map]
      simp [Function.comp_def, Piece.char]
  · refine ⟨text.toList.map .quoted, ?_, ?_⟩
    · have hopen : Reader.feed ⟨done, none, .bare⟩ ['\''] = some ⟨done, some [], .single⟩ := rfl
      rw [String.toList_ofList, ← List.singleton_append, List.append_assoc, Reader.feed_append,
        hopen, Option.bind_some, Reader.feed_append, feed_escaped, Option.bind_some]
      rfl
    · have hfixed : (text.toList.map Piece.quoted).any Piece.expands = false := by
        simp [List.any_map, Function.comp_def, Piece.expands]
      rw [Token.fixed?, if_neg (by simp [hfixed]), List.map_map]
      simp [Function.comp_def, Piece.char]

end Quote

/-- The line so far says this, and the next word has not begun. -/
def Leaves (front : String) (lexemes : List Lexeme) : Prop := ∃ done,
  Reader.feed {} front.toList = some ⟨done, none, .bare⟩ ∧ done.mapM Token.fixed? = some lexemes

section Leaves
variable {front : String} {lexemes : List Lexeme}

theorem mapM_concat {done : List Token} {token : Token} {lexeme : Lexeme}
    (hdone : done.mapM Token.fixed? = some lexemes) (h : token.fixed? = some lexeme) :
    (done ++ [token]).mapM Token.fixed? = some (lexemes ++ [lexeme]) := by
  rw [List.mapM_append, hdone]
  simp [h]

theorem Leaves.quote (h : Leaves front lexemes) (text : String) :
    Leaves (front ++ Shell.quote text ++ " ") (lexemes ++ [.word text]) := by
  obtain ⟨done, hfeed, hdone⟩ := h
  obtain ⟨pieces, hquote, hfixed⟩ := feed_quote done text
  refine ⟨done ++ [.word pieces], ?_, mapM_concat hdone hfixed⟩
  rw [String.toList_append, String.toList_append, Reader.feed_append, Reader.feed_append, hfeed,
    Option.bind_some, hquote, Option.bind_some]
  rfl

theorem Leaves.read_quote (h : Leaves front lexemes) (text : String) :
    read? (front ++ Shell.quote text) = some (lexemes ++ [.word text]) := by
  obtain ⟨done, hfeed, hdone⟩ := h
  obtain ⟨pieces, hquote, hfixed⟩ := feed_quote done text
  rw [read?, String.toList_append, Reader.feed_append, hfeed, Option.bind_some, hquote,
    Option.bind_some]
  exact mapM_concat hdone hfixed

end Leaves

end FleetControl.Shell
