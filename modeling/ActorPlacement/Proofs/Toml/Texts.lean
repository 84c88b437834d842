import ActorPlacement.Proofs.Text.Cutting
import ActorPlacement.Toml.Text
import ActorPlacement.Toml.Writer

/-!
# TOML texts are read back

A text is written in one of four forms. In all of them the inside stands for the text character by character
(`Inside`): a character stands for itself, or an escape does, and only so many quotes may stand side by side. Each
form's reader reads what stands so, up to the closing quotes, and each form's writer writes it. So every text is read
back as it was written, whatever characters it has (`readText?_writeText`).
-/

namespace ActorPlacement.Toml

variable {quote c : Char} {escapes lines : Bool} {most run : Nat} {e body cs rest : List Char}

/-! ## Escapes -/

/-- An escape, without its backslash, that is read as a character whatever follows. It does not look like a blank or
a line break, which would join two lines. -/
structure Escapes (e : List Char) (c : Char) : Prop where
  read : ∀ rest, readEscape? (e ++ rest) = some (c, rest)
  joins_none : ∀ rest, lineBreak? (skipSpaces (e ++ rest)) = none

theorem escapes_simple (mark : Char) (hmark : mark ∈ ['"', '\\', 'b', 'f', 'n', 'r', 't'])
    (hread : Json.simpleEscape? mark = some c) : Escapes [mark] c := by
  simp only [List.mem_cons, List.not_mem_nil, or_false] at hmark
  rcases hmark with rfl | rfl | rfl | rfl | rfl | rfl | rfl <;> cases hread <;>
    exact ⟨fun _ => rfl, fun _ => rfl⟩

theorem readHex?_append {count n m : Nat} (rest : List Char) (h : readHex? count n cs = some (m, body)) :
    readHex? count n (cs ++ rest) = some (m, body ++ rest) := by
  induction count generalizing n cs with
  | zero =>
    cases h
    rfl
  | succ count ih =>
    cases cs with
    | nil => cases h
    | cons c cs =>
      obtain ⟨d, hd, hmore⟩ := Option.bind_eq_some_iff.1 h
      rw [List.cons_append, readHex?, hd]
      exact ih hmore

theorem readHex?_hexUnit : ∀ n < 128, readHex? 4 0 (hexUnit n) = some (n, []) := by decide +kernel

/-- A character with a small number is read from that number. -/
theorem escapes_unit (h : c.toNat < 128) : Escapes ('u' :: hexUnit c.toNat) c where
  read rest := by
    have hhex := readHex?_append rest (readHex?_hexUnit c.toNat h)
    have hcode : charOfCode? c.toNat = some c := by
      rw [charOfCode?, if_pos (.inl (by omega)), Char.ofNat_toNat]
    rw [List.cons_append, readEscape?, hhex, Option.bind_some]
    simp only [hcode, Option.map_some, List.nil_append]
  joins_none _ := rfl

theorem escapeAll_cons_of_ne {quotes : Nat} (h : c ≠ '"') :
    escapeAll quotes lines run (c :: cs) = escapedChar lines c ++ escapeAll quotes lines 0 cs := by
  rw [escapeAll, if_neg h]

/-! ## Insides of texts -/

/-- The inside of a text stands for the text, after so many quotes that stand unescaped right before it. At most
`most` of them may stand side by side. -/
inductive Inside (quote : Char) (escapes lines : Bool) (most : Nat) : Nat → List Char → List Char → Prop where
  | done {run : Nat} : Inside quote escapes lines most run [] []
  | quote {run : Nat} {body cs : List Char} (fits : run < most)
      (more : Inside quote escapes lines most (run + 1) body cs) :
      Inside quote escapes lines most run (quote :: body) (quote :: cs)
  | plain {run : Nat} {c : Char} {body cs : List Char} (other : c ≠ quote) (unescaped : escapes = true → c ≠ '\\')
      (plain : isPlain c = true) (more : Inside quote escapes lines most 0 body cs) :
      Inside quote escapes lines most run (c :: body) (c :: cs)
  | lineFeed {run : Nat} {body cs : List Char} (allowed : lines = true)
      (more : Inside quote escapes lines most 0 body cs) :
      Inside quote escapes lines most run ('\n' :: body) ('\n' :: cs)
  | escape {run : Nat} {c : Char} {e body cs : List Char} (allowed : escapes = true) (reads : Escapes e c)
      (more : Inside quote escapes lines most 0 body cs) :
      Inside quote escapes lines most run ('\\' :: (e ++ body)) (c :: cs)

/-- What stands for a text is at least as long. -/
theorem Inside.length_le (h : Inside quote escapes lines most run body cs) : cs.length ≤ body.length := by
  induction h with
  | done => exact Nat.le_refl _
  | quote | plain | lineFeed =>
    simp only [List.length_cons]
    omega
  | escape =>
    simp only [List.length_cons, List.length_append]
    omega

theorem inside_escapedChar (h : c ≠ '"') (more : Inside '"' true lines most 0 body cs) :
    Inside '"' true lines most run (escapedChar lines c ++ body) (c :: cs) := by
  have hsimple (mark : Char) (hmark : mark ∈ ['"', '\\', 'b', 'f', 'n', 'r', 't'])
      (hread : Json.simpleEscape? mark = some c) : Inside '"' true lines most run ('\\' :: mark :: body) (c :: cs) :=
    .escape rfl (escapes_simple mark hmark hread) more
  unfold escapedChar
  split
  · subst c
    exact hsimple 'b' (by simp) rfl
  split
  · subst c
    exact hsimple 't' (by simp) rfl
  split
  · subst c
    split
    · exact .lineFeed ‹_› more
    · exact hsimple 'n' (by simp) rfl
  split
  · subst c
    exact hsimple 'f' (by simp) rfl
  split
  · subst c
    exact hsimple 'r' (by simp) rfl
  split
  · subst c
    exact hsimple '\\' (by simp) rfl
  split
  · exact .escape rfl (escapes_unit (by omega)) more
  · refine .plain h (fun _ => ‹_›) ?_ more
    simp only [isPlain, Bool.or_eq_true, Bool.and_eq_true, decide_eq_true_eq, bne_iff_ne]
    omega

theorem inside_escapeAll (quotes : Nat) (lines : Bool) (run : Nat) (cs : List Char) :
    Inside '"' true lines quotes run (escapeAll quotes lines run cs) cs := by
  induction cs generalizing run with
  | nil => exact .done
  | cons c cs ih =>
    by_cases hquote : c = '"'
    · subst hquote
      rw [escapeAll, if_pos rfl]
      split
      · rename_i hlt
        exact .quote hlt (ih _)
      · exact .escape rfl (escapes_simple '"' (by simp) rfl) (ih 0)
    · rw [escapeAll_cons_of_ne hquote]
      exact inside_escapedChar hquote (ih 0)

theorem le_longestRun (mark : Char) (run : Nat) (cs : List Char) : run ≤ longestRun mark run cs := by
  induction cs generalizing run with
  | nil => exact Nat.le_refl _
  | cons c cs ih =>
    rw [longestRun]
    split
    · exact Nat.le_trans (Nat.le_succ run) (ih (run + 1))
    · exact Nat.le_max_left _ _

/-- Without escapes a text stands for itself, if its runs of quotes are short enough. -/
theorem inside_self (hrun : longestRun quote run cs ≤ most)
    (hplain : ∀ c ∈ cs, isPlain c = true ∨ lines = true ∧ c = '\n') : Inside quote false lines most run cs cs := by
  induction cs generalizing run with
  | nil => exact .done
  | cons c cs ih =>
    obtain ⟨hc, hcs⟩ := List.forall_mem_cons.1 hplain
    rw [longestRun] at hrun
    split at hrun
    · subst c
      exact .quote (Nat.lt_of_lt_of_le (Nat.lt_succ_self run) (Nat.le_trans (le_longestRun _ _ _) hrun)) (ih hrun hcs)
    · have hmore := ih (Nat.le_trans (Nat.le_max_right _ _) hrun) hcs
      rcases hc with hc | ⟨hlines, rfl⟩
      · exact .plain ‹_› (by simp) hc hmore
      · exact .lineFeed hlines hmore

/-! ## Reading an inside -/

/-- A text of one line is read up to its quote. -/
theorem readBasic?_inside (h : Inside '"' true false 0 run body cs) (rest : List Char) (fuel : Nat)
    (hfuel : cs.length < fuel) : readBasic? fuel (body ++ '"' :: rest) = some (cs, rest) := by
  induction h generalizing fuel with
  | done =>
    obtain ⟨k, rfl⟩ := Nat.exists_eq_add_one_of_ne_zero (Nat.ne_of_gt hfuel)
    rfl
  | quote fits => exact absurd fits (Nat.not_lt_zero _)
  | lineFeed allowed => cases allowed
  | @plain _ c body cs other unescaped plain _ ih =>
    obtain ⟨k, rfl⟩ := Nat.exists_eq_add_one_of_ne_zero (Nat.ne_of_gt (Nat.zero_lt_of_lt hfuel))
    have hread := ih k (Nat.lt_of_succ_lt_succ hfuel)
    simp only [List.cons_append, readBasic?, other, unescaped rfl, plain, if_true, if_false, hread, Option.map_some]
  | @escape _ c e body cs _ reads _ ih =>
    obtain ⟨k, rfl⟩ := Nat.exists_eq_add_one_of_ne_zero (Nat.ne_of_gt (Nat.zero_lt_of_lt hfuel))
    have hread := ih k (Nat.lt_of_succ_lt_succ hfuel)
    have hquote : ¬('\\' : Char) = '"' := by decide
    simp only [List.cons_append, List.append_assoc, readBasic?, hquote, reads.read, if_true, if_false, hread,
      Option.bind_some, Option.map_some]

theorem readLiteral?_inside (h : Inside '\'' false false 0 run body cs) (rest : List Char) :
    readLiteral? (body ++ '\'' :: rest) = some (cs, rest) := by
  induction h with
  | done => rfl
  | quote fits => exact absurd fits (Nat.not_lt_zero _)
  | lineFeed allowed => cases allowed
  | escape allowed => cases allowed
  | plain other _ plain _ ih => simp only [List.cons_append, readLiteral?, other, plain, if_true, if_false, ih,
      Option.map_some]

theorem length_run {tail : List Char} (htail : tail.head? ≠ some quote) :
    ((List.replicate run quote ++ tail).takeWhile (· == quote)).length = run := by
  have hspan : (List.replicate run quote ++ tail).span (· == quote) = (List.replicate run quote, tail) := by
    refine span_append (fun c hc => by simp [List.eq_of_mem_replicate hc]) fun c hc => ?_
    have hne : c ≠ quote := fun heq => htail (heq ▸ hc)
    simpa using hne
  rw [List.span_eq_takeWhile_dropWhile] at hspan
  rw [(Prod.mk.inj hspan).1, List.length_replicate]

/-- A run of quotes that does not end the text is part of it. -/
theorem readLines?_after_run {tail : List Char} {n : Nat} (hrun : run ≤ 2) (htail : tail.head? ≠ some quote)
    (hread : ∀ fuel, n < fuel → readLines? quote escapes fuel tail = some (cs, rest)) (fuel : Nat)
    (hfuel : run + n < fuel) :
    readLines? quote escapes fuel (List.replicate run quote ++ tail) = some (List.replicate run quote ++ cs, rest) := by
  cases run with
  | zero => exact hread fuel (by omega)
  | succ run =>
    obtain ⟨k, rfl⟩ := Nat.exists_eq_add_one_of_ne_zero (Nat.ne_of_gt (Nat.zero_lt_of_lt hfuel))
    have hinside : QuoteRun.ofCount (run + 1) = .inside (run + 1) := if_pos (by omega)
    have hdrop : (List.replicate run quote ++ tail).drop (run + 1 - 1) = tail := List.drop_left' (by simp)
    rw [List.replicate_succ, List.cons_append, readLines?, if_pos rfl]
    simp only [length_run htail, hinside, hdrop, hread k (by omega), Option.map_some, List.replicate_succ]

/-- So many quotes before the three that end the text are part of it. -/
theorem readLines?_closing (fuel : Nat) (hrun : run ≤ 2) (hrest : rest.head? ≠ some quote) :
    readLines? quote escapes (fuel + 1) (List.replicate run quote ++ (List.replicate 3 quote ++ rest))
      = some (List.replicate run quote, rest) := by
  have hcount : QuoteRun.ofCount (run + 2 + 1) = .closing run := by
    rw [QuoteRun.ofCount, if_neg (by omega), Nat.min_eq_left (by omega)]
    rfl
  have hdrop : (List.replicate (run + 2) quote ++ rest).drop (run + 2) = rest := List.drop_left' (by simp)
  rw [← List.append_assoc, List.replicate_append_replicate, List.replicate_succ, List.cons_append, readLines?,
    if_pos rfl]
  simp only [length_run hrest, hcount, hdrop]

section Steps

variable {fuel : Nat} {tail : List Char}

theorem lineBreak?_of_plain (h : isPlain c = true) : lineBreak? (c :: tail) = none := by
  have hfeed : c ≠ '\n' := by
    rintro rfl
    cases h
  have hreturn : c ≠ '\r' := by
    rintro rfl
    cases h
  simp [lineBreak?, hfeed, hreturn]

theorem readLines?_plain (hquote : c ≠ quote) (hescape : escapes = true → c ≠ '\\') (hplain : isPlain c = true) :
    readLines? quote escapes (fuel + 1) (c :: tail)
      = (readLines? quote escapes fuel tail).map fun (cs, rest) => (c :: cs, rest) := by
  have hnot : ¬(escapes && c == '\\') = true := by simpa using hescape
  rw [readLines?, if_neg hquote, if_neg hnot, lineBreak?_of_plain hplain]
  exact if_pos hplain

theorem readLines?_lineFeed (hquote : '\n' ≠ quote) :
    readLines? quote escapes (fuel + 1) ('\n' :: tail)
      = (readLines? quote escapes fuel tail).map fun (cs, rest) => ('\n' :: cs, rest) := by
  have hnot : ¬(escapes && '\n' == '\\') = true := by simp
  rw [readLines?, if_neg hquote, if_neg hnot]
  rfl

theorem readLines?_escape (hquote : '\\' ≠ quote) (h : Escapes e c) :
    readLines? quote true (fuel + 1) ('\\' :: (e ++ tail))
      = (readLines? quote true fuel tail).map fun (cs, rest) => (c :: cs, rest) := by
  have hyes : (true && '\\' == '\\') = true := rfl
  rw [readLines?, if_neg hquote, if_pos hyes, h.joins_none, h.read]
  rfl

end Steps

/-- A text of several lines is read up to its closing quotes. -/
theorem readLines?_inside (hfeed : '\n' ≠ quote) (hbackslash : '\\' ≠ quote)
    (h : Inside quote escapes true 2 run body cs) (hrun : run ≤ 2) (hrest : rest.head? ≠ some quote)
    (fuel : Nat) (hfuel : run + cs.length < fuel) :
    readLines? quote escapes fuel (List.replicate run quote ++ (body ++ (List.replicate 3 quote ++ rest)))
      = some (List.replicate run quote ++ cs, rest) := by
  induction h generalizing fuel with
  | done =>
    obtain ⟨k, rfl⟩ := Nat.exists_eq_add_one_of_ne_zero (Nat.ne_of_gt (Nat.zero_lt_of_lt hfuel))
    rw [List.append_nil]
    exact readLines?_closing k hrun hrest
  | @quote run body cs fits _ ih =>
    -- the quote joins the run before it
    have hread := ih (by omega) fuel (by rw [List.length_cons] at hfuel; omega)
    rw [List.replicate_succ', List.append_assoc, List.append_assoc] at hread
    exact hread
  | plain other unescaped plain _ ih =>
    refine readLines?_after_run hrun (by simpa using other) (fun fuel hlt => ?_) fuel hfuel
    obtain ⟨k, rfl⟩ := Nat.exists_eq_add_one_of_ne_zero (Nat.ne_of_gt (Nat.zero_lt_of_lt hlt))
    have hread := ih (Nat.zero_le 2) k (by rw [List.length_cons] at hlt; omega)
    rw [List.replicate_zero, List.nil_append] at hread
    rw [List.cons_append, readLines?_plain other unescaped plain, hread]
    rfl
  | lineFeed _ _ ih =>
    refine readLines?_after_run hrun (by simpa using hfeed) (fun fuel hlt => ?_) fuel hfuel
    obtain ⟨k, rfl⟩ := Nat.exists_eq_add_one_of_ne_zero (Nat.ne_of_gt (Nat.zero_lt_of_lt hlt))
    have hread := ih (Nat.zero_le 2) k (by rw [List.length_cons] at hlt; omega)
    rw [List.replicate_zero, List.nil_append] at hread
    rw [List.cons_append, readLines?_lineFeed hfeed, hread]
    rfl
  | escape allowed reads _ ih =>
    subst allowed
    refine readLines?_after_run hrun (by simpa using hbackslash) (fun fuel hlt => ?_) fuel hfuel
    obtain ⟨k, rfl⟩ := Nat.exists_eq_add_one_of_ne_zero (Nat.ne_of_gt (Nat.zero_lt_of_lt hlt))
    have hread := ih (Nat.zero_le 2) k (by rw [List.length_cons] at hlt; omega)
    rw [List.replicate_zero, List.nil_append] at hread
    rw [List.cons_append, List.append_assoc, readLines?_escape hbackslash reads, hread]
    rfl

/-! ## The four forms -/

theorem isPlain_or_of_control {cs : List Char} (h : (TextTraits.ofText cs).control = false) (c : Char) (hc : c ∈ cs) :
    isPlain c = true ∨ c = '\n' := by
  refine Classical.or_iff_not_imp_right.2 fun hfeed => ?_
  have hnone := List.any_eq_false.1 h c hc
  simp only [Bool.or_eq_true, Bool.and_eq_true, decide_eq_true_eq, bne_iff_ne, beq_iff_eq, not_or, not_and,
    Decidable.not_not] at hnone
  simp only [isPlain, Bool.or_eq_true, Bool.and_eq_true, decide_eq_true_eq, bne_iff_ne, beq_iff_eq]
  by_cases htab : c = '\t'
  · exact .inl htab
  · have hlow : ¬c.toNat < 0x20 := fun hlt => hfeed (hnone.1 ⟨hlt, htab⟩)
    exact .inr ⟨Nat.not_lt.1 hlow, hnone.2⟩

theorem notMem_of_lineFeed {cs : List Char} (h : (TextTraits.ofText cs).lineFeed = false) : '\n' ∉ cs := by
  simpa [TextTraits.ofText] using h

/-- The opening quote of a text on one line stands alone, or with the closing one. -/
theorem Inside.ne_two_quotes (h : Inside quote escapes lines 0 run body cs) (hfeed : '\n' ≠ quote)
    (hbackslash : '\\' ≠ quote) (hrest : rest.head? ≠ some quote) (more : List Char) :
    body ++ quote :: rest ≠ quote :: quote :: more := by
  intro heq
  cases h with
  | done => exact hrest (by rw [(List.cons.inj heq).2]; rfl)
  | quote fits => exact absurd fits (Nat.not_lt_zero _)
  | plain other => exact other (List.cons.inj heq).1
  | lineFeed => exact hfeed (List.cons.inj heq).1
  | escape => exact hbackslash (List.cons.inj heq).1

/-- A text that does not hold a line feed has an inside that does not begin with a line break. -/
theorem Inside.lineBreak?_eq_none (h : Inside quote escapes lines most run body cs) (hcs : '\n' ∉ cs)
    (hquote : isPlain quote = true) : lineBreak? (body ++ (quote :: rest)) = none := by
  cases h with
  | done => exact lineBreak?_of_plain hquote
  | quote => exact lineBreak?_of_plain hquote
  | plain _ _ plain => exact lineBreak?_of_plain plain
  | lineFeed => exact absurd List.mem_cons_self hcs
  | escape => rfl

/-- A double quote that no two follow opens a text on one line. -/
theorem readText?_one_double {tail : List Char} (hopen : ∀ more, tail ≠ '"' :: '"' :: more) :
    readText? ('"' :: tail)
      = (readBasic? (('"' :: tail).length + 1) tail).map fun (cs, rest) => (String.ofList cs, rest) := by
  unfold readText?
  split
  · rename_i heq
    exact absurd (List.cons.inj heq).2 (hopen _)
  · rename_i heq
    rw [(List.cons.inj heq).2]
  all_goals simp_all

/-- A single quote that no two follow opens a text on one line. -/
theorem readText?_one_single {tail : List Char} (hopen : ∀ more, tail ≠ '\'' :: '\'' :: more) :
    readText? ('\'' :: tail) = (readLiteral? tail).map fun (cs, rest) => (String.ofList cs, rest) := by
  unfold readText?
  split
  iterate 2 simp_all
  · rename_i heq
    exact absurd (List.cons.inj heq).2 (hopen _)
  · rename_i heq
    rw [(List.cons.inj heq).2]
  · simp_all

theorem readText?_basicText (cs : List Char) (hrest : rest.head? ≠ some '"') :
    readText? (basicText cs ++ rest) = some (String.ofList cs, rest) := by
  have hinside := inside_escapeAll 0 false 0 cs
  have hwritten : basicText cs ++ rest = '"' :: (escapeAll 0 false 0 cs ++ '"' :: rest) := by simp [basicText]
  have hlength := hinside.length_le
  have hread := readBasic?_inside hinside rest ((basicText cs ++ rest).length + 1)
    (by simp only [hwritten, List.length_cons, List.length_append]; omega)
  rw [hwritten] at hread ⊢
  rw [readText?_one_double (hinside.ne_two_quotes (by decide) (by decide) hrest), hread]
  rfl

theorem readText?_literalText {cs : List Char} (hinside : Inside '\'' false false 0 0 cs cs)
    (hrest : rest.head? ≠ some '\'') : readText? (literalText cs ++ rest) = some (String.ofList cs, rest) := by
  have hwritten : literalText cs ++ rest = '\'' :: (cs ++ '\'' :: rest) := by simp [literalText]
  rw [hwritten, readText?_one_single (hinside.ne_two_quotes (by decide) (by decide) hrest),
    readLiteral?_inside hinside rest]
  rfl

/-- The line break after the opening quotes is dropped, and no other. -/
theorem skipFirstBreak_inside {cs : List Char} (hinside : Inside quote escapes true 2 0 body cs)
    (hquote : isPlain quote = true) (rest : List Char) :
    skipFirstBreak ((if (TextTraits.ofText cs).lineFeed then ['\n'] else []) ++ (body ++ (quote :: rest)))
      = body ++ quote :: rest := by
  cases hfeed : (TextTraits.ofText cs).lineFeed with
  | true => rfl
  | false =>
    rw [if_neg (by simp), List.nil_append, skipFirstBreak,
      hinside.lineBreak?_eq_none (notMem_of_lineFeed hfeed) hquote]
    rfl

theorem readText?_linesText {cs : List Char} (hinside : Inside quote escapes true 2 0 body cs)
    (hform : quote = '"' ∧ escapes = true ∨ quote = '\'' ∧ escapes = false) (hrest : rest.head? ≠ some quote) :
    readText? (linesText quote (TextTraits.ofText cs) body ++ rest) = some (String.ofList cs, rest) := by
  have hplain : isPlain quote = true := by rcases hform with ⟨rfl, -⟩ | ⟨rfl, -⟩ <;> rfl
  have hmarks : '\n' ≠ quote ∧ '\\' ≠ quote := by rcases hform with ⟨rfl, -⟩ | ⟨rfl, -⟩ <;> decide
  have hlength := hinside.length_le
  have hwritten : linesText quote (TextTraits.ofText cs) body ++ rest
      = quote :: quote :: quote :: ((if (TextTraits.ofText cs).lineFeed then ['\n'] else [])
          ++ (body ++ quote :: quote :: quote :: rest)) := by
    simp [linesText, List.replicate]
  have hread := readLines?_inside hmarks.1 hmarks.2 hinside (Nat.zero_le 2) hrest
    ((linesText quote (TextTraits.ofText cs) body ++ rest).length + 1)
    (by simp only [hwritten, List.length_cons, List.length_append]; omega)
  have hopened (tail : List Char) : readText? (quote :: quote :: quote :: tail)
      = (readLines? quote escapes ((quote :: quote :: quote :: tail).length + 1) (skipFirstBreak tail)).map
          fun (cs, rest) => (String.ofList cs, rest) := by
    rcases hform with ⟨rfl, rfl⟩ | ⟨rfl, rfl⟩ <;> rfl
  rw [hwritten] at hread ⊢
  rw [hopened, skipFirstBreak_inside hinside hplain]
  simp only [List.replicate, List.cons_append, List.nil_append] at hread
  rw [hread]
  rfl

/-- Every text is read back as it was written. -/
theorem readText?_writeText (s : String) (hdouble : rest.head? ≠ some '"') (hsingle : rest.head? ≠ some '\'') :
    readText? ((writeText s).toList ++ rest) = some (s, rest) := by
  have hbasic := readText?_basicText s.toList hdouble
  have hescaped := readText?_linesText (inside_escapeAll 2 true 0 s.toList) (.inl ⟨rfl, rfl⟩) hdouble
  have hliteral (hone : (TextTraits.ofText s.toList).control = false ∧ (TextTraits.ofText s.toList).singleRun = 0
      ∧ (TextTraits.ofText s.toList).lineFeed = false) :
      readText? (literalText s.toList ++ rest) = some (String.ofList s.toList, rest) := by
    refine readText?_literalText (inside_self (Nat.le_of_eq hone.2.1) fun c hc => .inl ?_) hsingle
    refine (isPlain_or_of_control hone.1 c hc).resolve_right ?_
    rintro rfl
    exact notMem_of_lineFeed hone.2.2 hc
  have hlines (hmany : (TextTraits.ofText s.toList).control = false ∧ (TextTraits.ofText s.toList).singleRun ≤ 2) :
      readText? (linesText '\'' (TextTraits.ofText s.toList) s.toList ++ rest)
        = some (String.ofList s.toList, rest) := by
    refine readText?_linesText (inside_self hmany.2 fun c hc => ?_) (.inr ⟨rfl, rfl⟩) hsingle
    exact (isPlain_or_of_control hmany.1 c hc).imp_right fun heq => ⟨rfl, heq⟩
  rw [String.ofList_toList] at hbasic hescaped hliteral hlines
  unfold writeText
  rw [String.toList_ofList]
  split
  · exact hbasic
  split
  · exact hliteral (by simp_all)
  split
  · exact hescaped
  split
  · exact hlines (by simp_all)
  split
  · exact hescaped
  · exact hbasic

end ActorPlacement.Toml
