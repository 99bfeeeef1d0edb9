import Pushdown.Proofs.Definition.Alike

/-!
# Tokens apart from their lines

A token knows the line it stands on, for messages. For anything else its line is of no account: rows
of the same tokens are laid out alike (`layoutOf?_congr`), layouts of the same tokens make the same
automaton (`Layout.build_unplaced`), and so

> `load_endAlike`: two texts whose rows that count have the same tokens are loaded as the same, or
> are refused on the same ground.
-/

namespace Pushdown.Definition

/-- A token, whatever its line. -/
def Token.unplaced (t : Token) : Token := { t with line := 0 }

/-- A row, whatever its line. -/
def unplaced (row : Row) : Row := row.map Token.unplaced

/-- A layout, whatever the lines of its tokens. -/
def Layout.unplaced (l : Layout) : Layout where
  states := l.states.map Token.unplaced
  inputSymbols := l.inputSymbols.map Token.unplaced
  stackSymbols := l.stackSymbols.map Token.unplaced
  initialState := l.initialState.unplaced
  initialSymbol := l.initialSymbol.unplaced
  transitions := l.transitions.map fun line =>
    ⟨line.source.unplaced, line.input.unplaced, line.top.unplaced, line.target.unplaced,
      line.push.unplaced⟩

theorem isCommentRow_unplaced (row : Row) : isCommentRow (unplaced row) = isCommentRow row := by
  cases row <;> rfl

theorem isIdle_unplaced (row : Row) : isIdle (unplaced row) = isIdle row := by
  cases row <;> rfl

theorem tokensOf_unplaced (n : Nat) (line : List Char) :
    unplaced (tokensOf n line) = tokensOf 0 line := by
  simp only [unplaced, tokensOf, List.map_map]
  rfl

/-! ## The format is one of tokens -/

theorem isTransitionRow_unplaced {row : Row} :
    IsTransitionRow (unplaced row) ↔ IsTransitionRow row := by
  match row with
  | source :: input :: top :: target :: push :: rest =>
    show (source.isComment = false ∧ target.isComment = false ∧ isIdle (unplaced rest) = true) ↔ _
    rw [isIdle_unplaced]
    rfl
  | [] | [_] | [_, _] | [_, _, _] | [_, _, _, _] => exact Iff.rfl

theorem followsFormat_unplaced {rows : List Row} :
    FollowsFormat (rows.map unplaced) ↔ FollowsFormat rows := by
  match rows with
  | states :: inputs :: stack :: [state] :: [symbol] :: transitions =>
    show ((states.map _ ≠ [] ∧ ∀ t ∈ states.map _, _) ∧ inputs.map _ ≠ [] ∧ stack.map _ ≠ [] ∧
      state.isComment = false ∧ ∀ row ∈ transitions.map unplaced, _) ↔ _
    simp only [List.forall_mem_map, isTransitionRow_unplaced, ne_eq, List.map_eq_nil_iff]
    rfl
  | [] | [_] | [_, _] | [_, _, _] | [_, _, _, []] | [_, _, _, [_]] | [_, _, _, _ :: _ :: _]
  | _ :: _ :: _ :: [] :: _ :: _ | _ :: _ :: _ :: (_ :: _ :: _) :: _ :: _
  | _ :: _ :: _ :: [_] :: [] :: _ | _ :: _ :: _ :: [_] :: (_ :: _ :: _) :: _ => exact Iff.rfl

theorem Layout.rows_unplaced (l : Layout) : l.unplaced.rows = l.rows.map Definition.unplaced := by
  simp only [rows, unplaced, List.map_append, List.map_map]
  rfl

/-- Rows of the same tokens are laid out alike. -/
theorem layoutOf?_congr {rows rows' : List Row} (h : rows.map unplaced = rows'.map unplaced)
    {l : Layout} (hl : layoutOf? rows = some l) :
    ∃ l', layoutOf? rows' = some l' ∧ l'.unplaced = l.unplaced := by
  obtain ⟨shape, tokens⟩ := layoutOf?_eq_some_iff.1 hl
  have shape' : FollowsFormat rows' := by
    rw [← followsFormat_unplaced, ← h]
    exact followsFormat_unplaced.2 shape
  obtain ⟨l', hl'⟩ := exists_layoutOf? shape'
  obtain ⟨-, tokens'⟩ := layoutOf?_eq_some_iff.1 hl'
  refine ⟨l', hl', Layout.rows_injective ?_⟩
  have first (row : Row) : unplaced (row.take 5) = (unplaced row).take 5 := List.map_take
  have parts (rows : List Row) :
      (rows.take 5 ++ (rows.drop 5).map (List.take 5)).map unplaced =
        (rows.map unplaced).take 5 ++ ((rows.map unplaced).drop 5).map (List.take 5) := by
    rw [List.map_append, List.map_take, ← List.map_drop, List.map_map, List.map_map]
    exact congrArg _ (List.map_congr_left fun row _ => first row)
  rw [Layout.rows_unplaced, Layout.rows_unplaced, tokens, tokens', parts, parts, h]

/-! ## Building is a matter of tokens -/

theorem symbolsOf_unplaced (ts : List Token) :
    symbolsOf (ts.map Token.unplaced) = symbolsOf ts := by
  rw [symbolsOf, List.filterMap_map]
  rfl

namespace Layout

theorem names_unplaced (l : Layout) : l.unplaced.names = l.names := by
  simp only [names, unplaced, List.map_map]
  rfl

theorem declared_unplaced (l : Layout) : l.unplaced.declared = l.declared := by
  simp only [declared, unplaced, symbolsOf_unplaced, List.map_map]
  rfl

theorem complete_unplaced (l : Layout) : l.unplaced.complete = l.complete := by
  rw [complete, declared_unplaced, unplaced, List.foldl_map]
  rfl

theorem alike_unplaced (l : Layout) : l.unplaced.Alike l where
  names_perm := by rw [names_unplaced]
  inputs_iff text := by rw [unplaced, List.map_map]; rfl
  stack_iff text := by rw [unplaced, List.map_map]; rfl
  initialState_eq := rfl
  initialSymbol_eq := rfl
  effects_eq place := by
    simp only [effects, unplaced, List.filter_map, List.map_map]
    rfl

theorem coherent_unplaced {l : Layout} : l.unplaced.Coherent ↔ l.Coherent :=
  ⟨l.alike_unplaced.coherent, l.alike_unplaced.symm.coherent⟩

/-- A layout makes what any other of the same tokens makes. -/
theorem build_unplaced {l : Layout} {a : Automaton} :
    l.unplaced.build = .ok a ↔ l.build = .ok a := by
  rw [build_eq_ok_iff, build_eq_ok_iff, coherent_unplaced, complete_unplaced, declared_unplaced,
    names_unplaced]
  exact Iff.rfl

end Layout

/-! ## How loading ends -/

/-- Two ways for loading to end that a user cannot tell apart but by messages: with one automaton,
at the format, or at what a definition means. -/
inductive EndAlike : Except Error Automaton → Except Error Automaton → Prop
  | loaded (a : Automaton) : EndAlike (.ok a) (.ok a)
  | layout (report report' : Report) : EndAlike (.error (.layout report)) (.error (.layout report'))
  | definition (fault fault' : DefinitionFault) :
    EndAlike (.error (.definition fault)) (.error (.definition fault'))

theorem EndAlike.eq_ok {a : Automaton} {x : Except Error Automaton} (h : EndAlike (.ok a) x) :
    x = .ok a := by
  cases h
  rfl

/-- What a text is loaded as depends on the tokens of the rows that count. -/
theorem load_endAlike {text text' : String} (small : text.utf8ByteSize ≤ sizeLimit)
    (small' : text'.utf8ByteSize ≤ sizeLimit)
    (h : (significantRows text).map unplaced = (significantRows text').map unplaced) :
    EndAlike (load text) (load text') := by
  cases read : Layout.read text with
  | error report =>
    cases read' : Layout.read text' with
    | error report' =>
      rw [load_of_read_eq_error small read, load_of_read_eq_error small' read']
      exact .layout report report'
    | ok l' =>
      obtain ⟨l, laid_out, -⟩ := layoutOf?_congr h.symm (Layout.read_eq_ok_iff.1 read')
      cases read.symm.trans (Layout.read_eq_ok_iff.2 laid_out)
  | ok l =>
    obtain ⟨l', laid_out, same⟩ := layoutOf?_congr h (Layout.read_eq_ok_iff.1 read)
    rw [load_of_read_eq_ok small read,
      load_of_read_eq_ok small' (Layout.read_eq_ok_iff.2 laid_out)]
    have builds (a : Automaton) : l.build = .ok a ↔ l'.build = .ok a := by
      rw [← Layout.build_unplaced, ← same, Layout.build_unplaced]
    cases build : l.build with
    | ok a =>
      rw [(builds a).1 build]
      exact .loaded a
    | error fault =>
      cases build' : l'.build with
      | ok a => cases build.symm.trans ((builds a).2 build')
      | error fault' => exact .definition fault fault'

end Pushdown.Definition
