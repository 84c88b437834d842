import ActorPlacement.Proofs.Toml.Keys
import ActorPlacement.Proofs.Toml.Numbers
import ActorPlacement.Toml.Reader

/-!
# TOML lines are read back

A document is written line by line: pairs of a key and a leaf, and headers with blank lines before them. Each line is
read for itself, whatever follows it, and adds its part to the page (`Standing`). A document is read as the tables of
the page that stands at its end (`readTree?_of_standing`).
-/

namespace ActorPlacement.Toml

variable {c : Char} {cs rest : List Char} {tree : Tree Float} {path : List String}

/-! ## Leaves -/

/-- A leaf whose value is read back up to the end of its line. -/
structure ReadsLeaf (tree : Tree Float) : Prop where
  plain : Part.ofTree tree = .plain (writeValue tree)
  opens : ∃ c tail, (writeValue tree).toList = c :: tail ∧ isSpace c = false
  read : ∀ fuel rest, readValue? (fuel + 1) 0 ((writeValue tree).toList ++ '\n' :: rest) = some (tree, '\n' :: rest)

theorem ReadsLeaf.skipSpaces_writeValue (h : ReadsLeaf tree) (rest : List Char) :
    skipSpaces ((writeValue tree).toList ++ rest) = (writeValue tree).toList ++ rest := by
  obtain ⟨c, tail, hwritten, hc⟩ := h.opens
  simp [skipSpaces, hwritten, hc]

theorem readsLeaf_flag (value : Bool) : ReadsLeaf (.flag value) where
  plain := rfl
  opens := by cases value <;> exact ⟨_, _, rfl, rfl⟩
  read _ _ := by cases value <;> rfl

theorem readsLeaf_empty : ReadsLeaf (.list []) where
  plain := rfl
  opens := ⟨_, _, rfl, rfl⟩
  read _ _ := rfl

theorem exists_quote (s : String) : ∃ c tail, (writeText s).toList = c :: tail ∧ (c = '"' ∨ c = '\'') := by
  unfold writeText
  rw [String.toList_ofList]
  repeat' split
  all_goals first | exact ⟨'"', _, rfl, .inl rfl⟩ | exact ⟨'\'', _, rfl, .inr rfl⟩

theorem readsLeaf_text (s : String) : ReadsLeaf (.text s) where
  plain := rfl
  opens := by
    obtain ⟨c, tail, hwritten, rfl | rfl⟩ := exists_quote s <;> exact ⟨_, tail, hwritten, rfl⟩
  read fuel rest := by
    have hread : readText? ((writeText s).toList ++ '\n' :: rest) = _ := readText?_writeText s (by simp) (by simp)
    show readValue? (fuel + 1) 0 ((writeText s).toList ++ '\n' :: rest) = _
    obtain ⟨c, tail, hwritten, rfl | rfl⟩ := exists_quote s <;>
    · rw [hwritten, List.cons_append] at hread ⊢
      rw [readValue?, hread]
      rfl

/-- A character that a written number may begin with. -/
def OpensNumber (c : Char) : Prop := c.isDigit = true ∨ c ∈ ['-', 'i', 'n']

theorem OpensNumber.ne {d : Char} (h : OpensNumber c) (hdigit : d.isDigit = false) (hd : d ∉ ['-', 'i', 'n']) :
    c ≠ d := by
  rintro rfl
  rcases h with h | h
  · rw [hdigit] at h
    cases h
  · exact hd h

theorem readValue?_number (h : OpensNumber c) (fuel : Nat) (tail : List Char) :
    readValue? (fuel + 1) 0 (c :: tail) = readStampOrNumber? (c :: tail) := by
  rw [readValue?]
  all_goals
    intros
    rename_i heq
    exact absurd (List.cons.inj heq).1 (h.ne rfl (by simp))

theorem readsLeaf_of_number (hplain : Part.ofTree tree = .plain (writeValue tree))
    (hopens : ∃ c tail, (writeValue tree).toList = c :: tail ∧ OpensNumber c)
    (hread : ∀ rest, readStampOrNumber? ((writeValue tree).toList ++ '\n' :: rest) = some (tree, '\n' :: rest)) :
    ReadsLeaf tree where
  plain := hplain
  opens := by
    obtain ⟨c, tail, hwritten, hc⟩ := hopens
    refine ⟨c, tail, hwritten, ?_⟩
    simp [isSpace, hc.ne (d := ' ') rfl (by simp), hc.ne (d := '\t') rfl (by simp)]
  read fuel rest := by
    obtain ⟨c, tail, hwritten, hc⟩ := hopens
    rw [← hread rest, hwritten]
    exact readValue?_number hc fuel _

theorem exists_opensNumber {digits : List Char} (negative : Bool) (h : Digits digits) (more : List Char) :
    ∃ c tail, signed negative (digits ++ more) = c :: tail ∧ OpensNumber c := by
  obtain ⟨d, digits, rfl⟩ := List.exists_cons_of_ne_nil h.some_digit
  cases negative with
  | true => exact ⟨'-', _, rfl, .inr (by simp)⟩
  | false => exact ⟨d, _, rfl, .inl (h.all_digits d List.mem_cons_self)⟩

theorem readsLeaf_whole {n : Int} (hfits : OptionValue.fitsWord n = true) : ReadsLeaf (.whole n) := by
  refine readsLeaf_of_number rfl ?_ (readStampOrNumber?_whole hfits)
  have hopens := exists_opensNumber (decide (n < 0)) (digits_toDigits n.natAbs) []
  rwa [List.append_nil, ← toList_toString_int] at hopens

theorem readsLeaf_real {x : Float} (h : ReadsFloat x) : ReadsLeaf (.real x) := by
  refine readsLeaf_of_number rfl ?_ h.on_line
  show ∃ c tail, (FloatStyle.toml.write x).toList = c :: tail ∧ OpensNumber c
  rcases toList_toml_write x with hword | ⟨negative, whole, fraction, hwhole, -, hwritten⟩
  · simp only [List.mem_cons, List.not_mem_nil, or_false] at hword
    rcases hword with heq | heq | heq <;> exact ⟨_, _, heq, .inr (by simp)⟩
  · rw [hwritten]
    exact exists_opensNumber negative hwhole _

/-! ## Lines -/

/-- A piece of a document that is read as one line, whatever follows it. It does not look like a mark of the byte
order. -/
structure Spells (piece : List Char) (line : Line) : Prop where
  opens : ∃ c tail, piece = c :: tail ∧ c ≠ '\uFEFF'
  read : ∀ rest, readLine? (piece ++ rest) = some (line, rest)

theorem spells_blank : Spells ['\n'] .blank where
  opens := ⟨_, _, rfl, by decide⟩
  read _ := rfl

theorem endLine?_writeKey (key : String) (rest : List Char) : endLine? ((writeKey key).toList ++ rest) = none := by
  obtain ⟨c, tail, hkey, hc⟩ := exists_opensKey key
  have hhash : c ≠ '#' := hc.ne rfl (by decide) (by decide)
  have hfeed : c ≠ '\n' := hc.ne rfl (by decide) (by decide)
  have hreturn : c ≠ '\r' := hc.ne rfl (by decide) (by decide)
  rw [endLine?, skipSpaces_writeKey, hkey]
  simp [skipComment, hhash, lineBreak?, hfeed, hreturn]

theorem readLine?_writeKey (key : String) (rest : List Char) :
    readLine? ((writeKey key).toList ++ rest)
      = (readKey? ((writeKey key).toList ++ rest)).bind fun (keys, rest) =>
          (expect? '=' rest).bind fun rest =>
            (readValue? (2 * rest.length + 2) 0 (skipSpaces rest)).bind fun (tree, rest) =>
              (endLine? rest).map fun rest => (.pair keys tree, rest) := by
  have hend := endLine?_writeKey key rest
  obtain ⟨c, tail, hkey, hc⟩ := exists_opensKey key
  have hbracket : c ≠ '[' := hc.ne rfl (by decide) (by decide)
  rw [readLine?, skipSpaces_writeKey]
  rw [hkey, List.cons_append] at hend ⊢
  split
  · rename_i heq
    exact absurd (List.cons.inj heq).1 hbracket
  · rename_i heq
    exact absurd (List.cons.inj heq).1 hbracket
  · rw [hend]

/-- The line of a pair. -/
def pairLine (key value : String) : List Char :=
  (writeKey key).toList ++ ([' ', '=', ' '] ++ (value.toList ++ ['\n']))

theorem spells_pair (key : String) (h : ReadsLeaf tree) :
    Spells (pairLine key (writeValue tree)) (.pair [key] tree) where
  opens := by
    obtain ⟨c, tail, hkey, hc⟩ := exists_opensKey key
    exact ⟨c, _, by rw [pairLine, hkey, List.cons_append], hc.ne rfl (by decide) (by decide)⟩
  read rest := by
    let value := (writeValue tree).toList ++ '\n' :: rest
    have hline : pairLine key (writeValue tree) ++ rest = writePath [key] ++ (' ' :: '=' :: ' ' :: value) := by
      simp [pairLine, value, writePath_singleton]
    have hkey : readKey? (writePath [key] ++ (' ' :: '=' :: ' ' :: value)) = some ([key], '=' :: ' ' :: value) :=
      readKey?_writePath (by simp) (by simp [isBare]) (by simp [skipSpaces, isSpace]) (by simp [depthLimit])
    have hvalue : readValue? (2 * (' ' :: value).length + 2) 0 (skipSpaces (' ' :: value))
        = some (tree, '\n' :: rest) := by
      have hspaces : skipSpaces (' ' :: value) = value := h.skipSpaces_writeValue ('\n' :: rest)
      rw [hspaces]
      exact h.read _ rest
    rw [hline, writePath_singleton, readLine?_writeKey, ← writePath_singleton, hkey, Option.bind_some]
    show (readValue? (2 * (' ' :: value).length + 2) 0 (skipSpaces (' ' :: value))).bind _ = _
    rw [hvalue]
    rfl

/-- The line of a header. -/
def headerLine (opening closing : List Char) (path : List String) : List Char :=
  opening ++ (writePath path ++ (closing ++ ['\n']))

theorem readHeader?_writePath (hpath : path ≠ []) (hdepth : path.length ≤ depthLimit) (more rest : List Char) :
    readHeader? (']' :: more) (writePath path ++ (']' :: more ++ rest)) = some (path, rest) := by
  rw [readHeader?, readKey?_writePath hpath (by simp [isBare]) (by simp [skipSpaces, isSpace]) hdepth, Option.bind_some]
  have hspaces : skipSpaces (']' :: more ++ rest) = ']' :: more ++ rest := rfl
  have hprefix : (']' :: more).isPrefixOf (']' :: more ++ rest) = true := by simp
  simp only [hspaces, hprefix, if_true, List.drop_left]

theorem spells_item (hpath : path ≠ []) (hdepth : path.length ≤ depthLimit) :
    Spells (headerLine ['[', '['] [']', ']'] path) (.item path) where
  opens := ⟨_, _, rfl, by decide⟩
  read rest := by
    have hline : headerLine ['[', '['] [']', ']'] path ++ rest
        = '[' :: '[' :: (writePath path ++ (']' :: [']'] ++ '\n' :: rest)) := by
      simp [headerLine]
    show readLine? (headerLine ['[', '['] [']', ']'] path ++ rest) = _
    rw [hline]
    show (readHeader? [']', ']'] (writePath path ++ (']' :: [']'] ++ '\n' :: rest))).bind _ = _
    rw [readHeader?_writePath hpath hdepth]
    rfl

theorem exists_opensKey_writePath (hpath : path ≠ []) : ∃ c tail, writePath path = c :: tail ∧ OpensKey c := by
  obtain ⟨key, more, rfl⟩ := List.exists_cons_of_ne_nil hpath
  obtain ⟨c, tail, hkey, hc⟩ := exists_opensKey key
  by_cases hlast : more = []
  · exact ⟨c, tail, by rw [hlast, writePath_singleton, hkey], hc⟩
  · exact ⟨c, _, by rw [writePath_cons key hlast, hkey, List.cons_append], hc⟩

theorem spells_table (hpath : path ≠ []) (hdepth : path.length ≤ depthLimit) :
    Spells (headerLine ['['] [']'] path) (.table path) where
  opens := ⟨_, _, rfl, by decide⟩
  read rest := by
    have hline : headerLine ['['] [']'] path ++ rest = '[' :: (writePath path ++ (']' :: [] ++ '\n' :: rest)) := by
      simp [headerLine]
    have hheader := readHeader?_writePath hpath hdepth [] ('\n' :: rest)
    obtain ⟨c, tail, hpathLine, hc⟩ := exists_opensKey_writePath hpath
    have hbracket : c ≠ '[' := hc.ne rfl (by decide) (by decide)
    show readLine? (headerLine ['['] [']'] path ++ rest) = _
    rw [hline]
    rw [hpathLine, List.cons_append] at hheader ⊢
    have hspaces (tail : List Char) : skipSpaces ('[' :: tail) = '[' :: tail := rfl
    rw [readLine?, hspaces]
    simp only
    split
    · rename_i heq
      exact absurd (List.cons.inj (List.cons.inj heq).2).1 hbracket
    · rename_i heq
      rw [← (List.cons.inj heq).2, hheader]
      rfl
    · rename_i hnot
      exact absurd rfl (hnot _)

/-! ## Pages -/

/-- What a document that is written so far is read as. -/
inductive Standing : List Char → Page → Prop where
  | blank : Standing [] { entries := [], section_ := [] }
  | line {cs piece : List Char} {page next : Page} {line : Line} (before : Standing cs page)
      (spells : Spells piece line) (adds : page.add? line = some next) : Standing (cs ++ piece) next

namespace Standing

variable {page next : Page}

theorem exists_lines (h : Standing cs page) :
    ∃ lines : List Line, lines.length ≤ cs.length
      ∧ (∀ fuel rest, readLinesOf? (lines.length + fuel) (cs ++ rest) = (readLinesOf? fuel rest).map (lines ++ ·))
      ∧ lines.foldlM Page.add? { entries := [], section_ := [] } = some page := by
  induction h with
  | blank => exact ⟨[], Nat.le_refl 0, by simp, rfl⟩
  | @line cs piece page next line _ spells adds ih =>
    obtain ⟨lines, hlength, hread, hadd⟩ := ih
    obtain ⟨c, tail, hpiece, -⟩ := spells.opens
    refine ⟨lines ++ [line], ?_, fun fuel rest => ?_, ?_⟩
    · rw [List.length_append, List.length_append, hpiece]
      exact Nat.add_le_add hlength (Nat.le_add_left _ _)
    · have hline : readLinesOf? (fuel + 1) (piece ++ rest) = (readLinesOf? fuel rest).map (line :: ·) := by
        have hspelled := spells.read rest
        rw [hpiece, List.cons_append] at hspelled ⊢
        rw [readLinesOf?, hspelled]
        · rfl
        · simp
      rw [List.append_assoc, List.length_append, Nat.add_assoc, Nat.add_comm _ fuel]
      refine (hread (fuel + 1) (piece ++ rest)).trans ?_
      rw [hline, Option.map_map]
      refine congrFun (congrArg _ (funext fun more => ?_)) _
      simp
    · rw [List.foldlM_append, hadd]
      simp [adds]

theorem withoutMark_eq (h : Standing cs page) : withoutMark cs = cs := by
  have hopens : ∀ c ∈ cs.head?, c ≠ '\uFEFF' := by
    induction h with
    | blank => simp
    | line _ spells _ ih =>
      intro c hc
      rw [List.head?_append] at hc
      obtain ⟨d, tail, hpiece, hd⟩ := spells.opens
      rcases Option.or_eq_some_iff.1 hc with hc | ⟨-, hc⟩
      · exact ih c hc
      · rw [hpiece] at hc
        cases hc
        exact hd
  cases cs with
  | nil => rfl
  | cons c cs =>
    refine if_neg fun hmark => hopens c rfl ?_
    rw [← Char.ofNat_toNat c, hmark]

/-- A document is read as the tables of its page. -/
theorem readTree?_eq {s : String} (h : Standing s.toList page) :
    readTree? s = some (Draft.table .header page.entries).toTree := by
  obtain ⟨lines, hlength, hread, hadd⟩ := h.exists_lines
  have hlines : readLinesOf? s.toList.length s.toList = some lines := by
    obtain ⟨spare, hspare⟩ := Nat.exists_eq_add_of_le hlength
    have hall := hread spare []
    rw [← hspare, List.append_nil] at hall
    rw [hall]
    cases spare <;> simp [readLinesOf?]
  simp only [readTree?, h.withoutMark_eq, hlines, hadd, Option.bind_eq_bind, Option.bind_some]
  rfl

/-! Writing one more line -/

theorem pair {w : Written} (h : Standing w.text.toList page) (key : String) (hleaf : ReadsLeaf tree)
    (hadd : page.add? (.pair [key] tree) = some next) : Standing (w.pair key (writeValue tree)).text.toList next := by
  have hwritten : (w.pair key (writeValue tree)).text.toList = w.text.toList ++ pairLine key (writeValue tree) := by
    simp [Written.pair, pairLine]
  rw [hwritten]
  exact h.line (spells_pair key hleaf) hadd

theorem header {w : Written} {opening closing : String} {line : Line} (h : Standing w.text.toList page)
    (hspells : Spells (headerLine opening.toList closing.toList path) line) (hadd : page.add? line = some next) :
    Standing (w.header opening closing path).text.toList next := by
  have hbreak : Standing (w.text ++ (if w.first then "" else "\n")).toList page := by
    cases w.first with
    | true => simpa using h
    | false => simpa using h.line spells_blank rfl
  have hwritten : (w.header opening closing path).text.toList
      = (w.text ++ (if w.first then "" else "\n")).toList ++ headerLine opening.toList closing.toList path := by
    simp [Written.header, headerLine, writePath]
  rw [hwritten]
  exact hbreak.line hspells hadd

end Standing

end ActorPlacement.Toml
