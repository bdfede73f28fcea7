import Dinero.Backtrack
import Dinero.BrokenLines
import Dinero.Entities

/-!
# Dinero.MimeSanitization

The text of an email, without markup and without quoted mail.

Markup is taken out by patterns, then the entities are replaced one after the
other, the ampersand before the others: an ampersand that was escaped can so
become the start of an entity.
-/

namespace Dinero

open TextLines Backtrack Entities

variable [Extern]

/-! ## plain text -/

/-- The lines that are not quoted, as far as the signature. -/
def keptLines : List (List Char) → List (List Char)
  | [] => []
  | line :: rest =>
    if (line.dropWhile isWhitespace).head? = some '>' then keptLines rest
    else if trim line = "--".toList then []
    else line :: keptLines rest

def trimEnd (s : List Char) : List Char := s.rdropWhile isWhitespace

/-- `\n{3,}`. -/
def manyBreaks : Pattern := .seq (times 3 (.lit '\n')) (.star true (.lit '\n'))

def sanitizePlainText (text : List Char) : List Char :=
  trim (replaceAll manyBreaks "\n\n".toList
    (joinLines ((keptLines (lines text)).map trimEnd)))

/-! ## markup -/

section Patterns

omit [Extern]

/-- A character under `(?i)`; two more have an ASCII letter as their other case. -/
def caseless (c : Char) : Pattern :=
  .cls fun d => d.toLower = c ∨ (c = 's' ∧ d = '\u017f') ∨ (c = 'k' ∧ d = '\u212a')

def word (s : String) : Pattern := seqAll (s.toList.map caseless)

def anyChar : Pattern := .cls fun _ => true

def butFor (c : Char) : Pattern := .cls fun d => d ≠ c

/-- `(?is)<script.*?>.*?</script>`. -/
def scriptRe : Pattern :=
  seqAll [.lit '<', word "script", .star false anyChar, .lit '>', .star false anyChar, .lit '<',
    .lit '/', word "script", .lit '>']

/-- `(?is)<style.*?>.*?</style>`. -/
def styleRe : Pattern :=
  seqAll [.lit '<', word "style", .star false anyChar, .lit '>', .star false anyChar, .lit '<',
    .lit '/', word "style", .lit '>']

/-- `[a-z0-9_-]` under `(?i)`. -/
def selectorChar : Pattern :=
  .cls fun d => d.isAlphanum ∨ d = '_' ∨ d = '-' ∨ d = '\u017f' ∨ d = '\u212a'

/-- `(?i)<(div|p|br|li|tr|table|h1|h2|h3|h4|h5|h6)[^>]*>`. -/
def blockRe : Pattern :=
  seqAll [.lit '<', .group 1 (altAll (["div", "p", "br", "li", "tr", "table", "h1", "h2", "h3",
    "h4", "h5", "h6"].map word)), .star true (butFor '>'), .lit '>']

/-- `(?is)<.*?>`. -/
def tagRe : Pattern := seqAll [.lit '<', .star false anyChar, .lit '>']

end Patterns

/-- `(?i)(?:@media[^{]+\{[\s\S]*?\}|body|..|#[a-z0-9_-]+)\s*\{[^}]*\}`. -/
def looseCssRe : Pattern :=
  seqAll [altAll ([seqAll [.lit '@', word "media", plus true (butFor '\x7b'), .lit '\x7b',
      .star false anyChar, .lit '\x7d']] ++
      ["body", "table", "td", "th", "p", "a", "img"].map word ++
      [.seq (.lit '.') (plus true selectorChar), .seq (.lit '#') (plus true selectorChar)]),
    .star true (.cls isWhitespace), .lit '\x7b', .star true (butFor '\x7d'), .lit '\x7d']

/-! ## entities -/

section Entities

omit [Extern]

def nbspEntity : Entity := ⟨' ', "nbsp;".toList⟩
def ampEntity : Entity := ⟨'&', "amp;".toList⟩
def ltEntity : Entity := ⟨'<', "lt;".toList⟩
def gtEntity : Entity := ⟨'>', "gt;".toList⟩
def quotEntity : Entity := ⟨Char.ofNat 34, "quot;".toList⟩
def aposEntity : Entity := ⟨Char.ofNat 39, "#39;".toList⟩

/-- The replacements at the end of `sanitize_html`. -/
def replaceEntities (s : List Char) : List Char :=
  [nbspEntity, ampEntity, ltEntity, gtEntity, quotEntity, aposEntity].foldl
    (fun s e => replace e.text [e.char] s) s

/-- Those replaced after the ampersand, the last one first. -/
def laterEntities : List Entity := [aposEntity, quotEntity, gtEntity, ltEntity]

/-- `&`, `<`, `>` and quotes as entities. -/
def escapeHtml (s : List Char) : List Char :=
  Entities.escape (ampEntity :: laterEntities) s

end Entities

def sanitizeHtml (html : List Char) : List Char :=
  let text := replaceAll scriptRe [] html
  let text := replaceAll styleRe [] text
  let text := replaceAll looseCssRe [] text
  let text := replaceAll blockRe ['\n'] text
  let text := replaceAll tagRe [] text
  sanitizePlainText (replaceEntities text)

/-! ## what a plain text goes through -/

/-- The ampersand is no white space. -/
class AmpersandTable [Extern] : Prop where
  amp : isWhitespace '&' = false

theorem white_ne_amp [AmpersandTable] (c : Char) (hc : isWhitespace c = true) :
    (c == '&') = false := by
  by_contra heq
  rw [Bool.not_eq_false, beq_iff_eq] at heq
  rw [heq, AmpersandTable.amp] at hc
  cases hc

section Escaped

omit [Extern]

theorem wellFormed_later : WellFormed laterEntities := by
  constructor
  · decide
  · decide
  · decide
  · decide

/-- The markup patterns need a bracket, and an escaped text has none. -/
theorem lt_not_mem_escapeHtml (s : List Char) : '<' ∉ escapeHtml s := by
  intro h
  rw [escapeHtml, Entities.escape, List.mem_flatMap] at h
  obtain ⟨c, -, hc⟩ := h
  obtain ⟨e, he, -, htext⟩ | ⟨hnone, htext⟩ :=
    escapeChar_cases (ampEntity :: laterEntities) c
  · rw [htext] at hc
    have hplain : ∀ e ∈ ampEntity :: laterEntities, '<' ∉ e.text := by decide
    exact hplain e he hc
  · rw [htext, List.mem_singleton] at hc
    exact hnone ltEntity (by decide) hc

theorem brace_not_mem_escapeHtml {s : List Char} (hs : '\x7b' ∉ s) : '\x7b' ∉ escapeHtml s := by
  intro h
  rw [escapeHtml, Entities.escape, List.mem_flatMap] at h
  obtain ⟨c, hmem, hc⟩ := h
  obtain ⟨e, he, -, htext⟩ | ⟨-, htext⟩ := escapeChar_cases (ampEntity :: laterEntities) c
  · rw [htext] at hc
    have hplain : ∀ e ∈ ampEntity :: laterEntities, '\x7b' ∉ e.text := by decide
    exact hplain e he hc
  · rw [htext, List.mem_singleton] at hc
    exact hs (hc ▸ hmem)

/-- The entities of an escaped text are read, and those the text had itself. -/
theorem replaceEntities_escapeHtml (s : List Char) :
    replaceEntities (escapeHtml s) = decode laterEntities s := by
  have hnbsp : replace nbspEntity.text [' '] (escapeHtml s) = escapeHtml s :=
    replace_escape_of_apart (by decide) ⟨ampEntity, by decide, rfl⟩ (by decide) (by decide) s
  have hamp : replace ampEntity.text ['&'] (escapeHtml s) = Entities.escape laterEntities s :=
    replace_escape_amp rfl wellFormed_later (by decide) (by decide) s
  have hlater : ∀ t, replace aposEntity.text [aposEntity.char]
      (replace quotEntity.text [quotEntity.char] (replace gtEntity.text [gtEntity.char]
        (replace ltEntity.text [ltEntity.char] t))) = decode laterEntities t := by
    intro t
    have hnone : t = decode [] t := (decode_of_not_hasEntity (by simp [HasEntity])).symm
    conv_lhs => rw [hnone]
    rw [replace_decode wellFormed_later.tail.tail.tail (by decide),
      replace_decode wellFormed_later.tail.tail (by decide),
      replace_decode wellFormed_later.tail (by decide), replace_decode wellFormed_later (by decide)]
    rfl
  calc replaceEntities (escapeHtml s)
      = replace aposEntity.text [aposEntity.char]
          (replace quotEntity.text [quotEntity.char] (replace gtEntity.text [gtEntity.char]
            (replace ltEntity.text [ltEntity.char] (replace ampEntity.text ['&']
              (replace nbspEntity.text [' '] (escapeHtml s)))))) := rfl
    _ = decode laterEntities (Entities.escape laterEntities s) := by rw [hnbsp, hamp, hlater]
    _ = decode laterEntities s := decode_escape wellFormed_later s

end Escaped

/-- Sanitising an escaped text: the entities it had itself are read. -/
theorem sanitizeHtml_escapeHtml {s : List Char} (hs : '\x7b' ∉ s) :
    sanitizeHtml (escapeHtml s) = sanitizePlainText (decode laterEntities s) := by
  have hlt := lt_not_mem_escapeHtml s
  have hbrace := brace_not_mem_escapeHtml hs
  have hscript : scriptRe.Needs '<' := .inl rfl
  have hstyle : styleRe.Needs '<' := .inl rfl
  have hblock : blockRe.Needs '<' := .inl rfl
  have htag : tagRe.Needs '<' := .inl rfl
  have hcss : looseCssRe.Needs '\x7b' := .inr (.inr (.inl rfl))
  rw [sanitizeHtml, replaceAll_of_not_mem hscript hlt, replaceAll_of_not_mem hstyle hlt,
    replaceAll_of_not_mem hcss hbrace, replaceAll_of_not_mem hblock hlt,
    replaceAll_of_not_mem htag hlt, replaceEntities_escapeHtml]

/-! ## line by line -/

section Lines

omit [Extern]

variable {es : List Entity}

theorem decode_joinLines (hes : WellFormed es) (hbreak : Outside es '\n')
    (ls : List (List Char)) : decode es (joinLines ls) = joinLines (ls.map (decode es)) := by
  induction ls with
  | nil => rfl
  | cons l ls ih =>
    cases ls with
    | nil => simp
    | cons m ls =>
      rw [joinLines_cons_cons, decode_append_outside hes hbreak (by decide), ih, List.map_cons]
      simp only [List.map_cons, joinLines_cons_cons]

theorem decode_stripReturn (hes : WellFormed es) (hreturn : Outside es '\r') (l : List Char) :
    decode es (stripReturn l) = stripReturn (decode es l) := by
  by_cases hl : l.getLast? = some '\r'
  · obtain ⟨front, rfl⟩ := List.getLast?_eq_some_iff.mp hl
    rw [stripReturn, if_pos hl, List.dropLast_concat,
      decode_append_outside hes hreturn (by decide), decode_nil, stripReturn, if_pos (by simp),
      List.dropLast_concat]
  · rw [stripReturn_of_getLast hl,
      stripReturn_of_getLast fun h => hl (getLast_decode hes hreturn h)]

theorem decode_linesOf (hes : WellFormed es) (hreturn : Outside es '\r')
    (ls : List (List Char)) : linesOf (ls.map (decode es)) = (linesOf ls).map (decode es) := by
  induction ls with
  | nil => rfl
  | cons l ls ih =>
    cases ls with
    | nil =>
      by_cases hl : l = []
      · simp [linesOf, hl]
      · simp [linesOf, hl, decode_eq_nil hes]
    | cons m ls =>
      rw [List.map_cons, List.map_cons, linesOf, linesOf, List.map_cons, ← ih,
        decode_stripReturn hes hreturn, List.map_cons]

/-- Entities are read line by line. -/
theorem lines_decode (hes : WellFormed es) (hbreak : Outside es '\n')
    (hreturn : Outside es '\r') (s : List Char) :
    lines (decode es s) = (lines s).map (decode es) := by
  have hpieces : ∀ l ∈ (s.splitOn '\n').map (decode es), '\n' ∉ l := by
    intro l hl
    obtain ⟨piece, hpiece, rfl⟩ := List.mem_map.mp hl
    intro hmem
    rw [List.splitOn_eq_splitOnP] at hpiece
    simpa using (mem_of_mem_splitOnP hpiece _ (mem_of_mem_decode hes hbreak hmem)).2
  have hne : (s.splitOn '\n').map (decode es) ≠ [] := by
    simp [List.splitOn_ne_nil]
  have hs : decode es s = joinLines ((s.splitOn '\n').map (decode es)) := by
    rw [← decode_joinLines hes hbreak, joinLines, List.intercalate_splitOn]
  rw [hs, lines_joinLines hne hpieces, decode_linesOf hes hreturn, lines]

theorem outside_later {c : Char} (h : c = '\n' ∨ c = '\r') : Outside laterEntities c := by
  obtain rfl | rfl := h
  · exact ⟨by decide, by decide⟩
  · exact ⟨by decide, by decide⟩

end Lines

theorem keptLines_quoted {line : List Char} (h : (line.dropWhile isWhitespace).head? = some '>')
    (rest : List (List Char)) : keptLines (line :: rest) = keptLines rest := if_pos h

theorem keptLines_signature {line : List Char}
    (h : ¬ (line.dropWhile isWhitespace).head? = some '>') (h' : trim line = "--".toList)
    (rest : List (List Char)) : keptLines (line :: rest) = [] := by
  rw [keptLines, if_neg h, if_pos h']

theorem keptLines_kept {line : List Char}
    (h : ¬ (line.dropWhile isWhitespace).head? = some '>') (h' : ¬ trim line = "--".toList)
    (rest : List (List Char)) : keptLines (line :: rest) = line :: keptLines rest := by
  rw [keptLines, if_neg h, if_neg h']

/-- A line read is kept, or it is not, and then the ones behind it are no more than before. -/
theorem count_keptLines_cons_le (line : List Char) (ls : List (List Char)) :
    (keptLines (line :: ls)).flatten.count '&' ≤
      line.count '&' + (keptLines ls).flatten.count '&' := by
  rw [keptLines]
  split
  · exact Nat.le_add_left _ _
  · split
    · simp
    · rw [List.flatten_cons, List.count_append]

variable [AmpersandTable]

/-- A quoted line stays quoted. -/
theorem quoted_decode {line : List Char}
    (h : (line.dropWhile isWhitespace).head? = some '>') :
    ((decode laterEntities line).dropWhile isWhitespace).head? = some '>' := by
  have hsplit := List.takeWhile_append_dropWhile (p := isWhitespace) (l := line)
  obtain ⟨rest, hrest⟩ := List.head?_eq_some_iff.mp h
  have hbracket : isWhitespace '>' = false := head_dropWhile '>' h
  have hwhite : ∀ c ∈ line.takeWhile isWhitespace, isWhitespace c = true :=
    fun c hc => List.mem_takeWhile_imp hc
  have hamp : '&' ∉ line.takeWhile isWhitespace := by
    intro hmem
    have hwhite' := hwhite '&' hmem
    rw [AmpersandTable.amp] at hwhite'
    cases hwhite'
  rw [← hsplit, hrest, decode_append_plain hamp, decode_cons_of_ne (by decide),
    List.dropWhile_append_of_pos hwhite, List.dropWhile_cons_of_neg (by simp [hbracket])]
  rfl

/-- Nothing is read in the line of the signature. -/
theorem signature_decode {line : List Char} (h : trim line = "--".toList) :
    decode laterEntities line = line := by
  have hfilter := filter_trim white_ne_amp line
  rw [h] at hfilter
  apply decode_of_not_hasEntity
  intro hentity
  have hlt := count_decode_lt wellFormed_later hentity
  rw [List.count_eq_length_filter (l := line), ← hfilter] at hlt
  exact Nat.not_lt_zero _ hlt

/-- Where no line that is kept has an entity, the same lines are kept. -/
theorem keptLines_decode_of_none {ls : List (List Char)}
    (h : ∀ line ∈ keptLines ls, ¬ HasEntity laterEntities line) :
    keptLines (ls.map (decode laterEntities)) = keptLines ls := by
  induction ls with
  | nil => rfl
  | cons line ls ih =>
    rw [List.map_cons]
    by_cases hquoted : (line.dropWhile isWhitespace).head? = some '>'
    · rw [keptLines_quoted hquoted] at h
      rw [keptLines_quoted hquoted, keptLines_quoted (quoted_decode hquoted), ih h]
    by_cases hsignature : trim line = "--".toList
    · rw [signature_decode hsignature, keptLines_signature hquoted hsignature,
        keptLines_signature hquoted hsignature]
    · rw [keptLines_kept hquoted hsignature, List.forall_mem_cons] at h
      rw [decode_of_not_hasEntity h.1, keptLines_kept hquoted hsignature,
        keptLines_kept hquoted hsignature, ih h.2]

theorem count_keptLines_decode_le (ls : List (List Char)) :
    (keptLines (ls.map (decode laterEntities))).flatten.count '&' ≤
      (keptLines ls).flatten.count '&' := by
  induction ls with
  | nil => exact le_rfl
  | cons line ls ih =>
    rw [List.map_cons]
    by_cases hquoted : (line.dropWhile isWhitespace).head? = some '>'
    · rw [keptLines_quoted hquoted, keptLines_quoted (quoted_decode hquoted)]
      exact ih
    by_cases hsignature : trim line = "--".toList
    · rw [signature_decode hsignature, keptLines_signature hquoted hsignature,
        keptLines_signature hquoted hsignature]
    · have hline := count_decode_le wellFormed_later line
      have hcons := count_keptLines_cons_le (decode laterEntities line)
        (ls.map (decode laterEntities))
      rw [keptLines_kept hquoted hsignature, List.flatten_cons, List.count_append]
      omega

/-- Every entity in a line that is kept costs an ampersand. -/
theorem count_keptLines_decode_lt {ls : List (List Char)}
    (h : ∃ line ∈ keptLines ls, HasEntity laterEntities line) :
    (keptLines (ls.map (decode laterEntities))).flatten.count '&' <
      (keptLines ls).flatten.count '&' := by
  induction ls with
  | nil => simp [keptLines] at h
  | cons line ls ih =>
    rw [List.map_cons]
    by_cases hquoted : (line.dropWhile isWhitespace).head? = some '>'
    · rw [keptLines_quoted hquoted] at h
      rw [keptLines_quoted hquoted, keptLines_quoted (quoted_decode hquoted)]
      exact ih h
    by_cases hsignature : trim line = "--".toList
    · rw [keptLines_signature hquoted hsignature] at h
      simp at h
    · have hcons := count_keptLines_cons_le (decode laterEntities line)
        (ls.map (decode laterEntities))
      have hle := count_keptLines_decode_le ls
      rw [keptLines_kept hquoted hsignature] at h ⊢
      rw [List.flatten_cons, List.count_append]
      by_cases hentity : HasEntity laterEntities line
      · have hline := count_decode_lt wellFormed_later hentity
        omega
      · have hline := count_decode_le wellFormed_later line
        have hrest : ∃ line ∈ keptLines ls, HasEntity laterEntities line := by
          simpa [hentity] using h
        have hlt := ih hrest
        omega

/-! ## decoding once -/

/-- The ampersands of a text are those of the lines that are kept. -/
theorem count_sanitizePlainText (s : List Char) :
    (sanitizePlainText s).count '&' = (keptLines (lines s)).flatten.count '&' := by
  have hbreaks : manyBreaks.Within (· = '\n') := ⟨⟨rfl, rfl, rfl⟩, rfl⟩
  have hgone : ∀ c, c = '\n' → (c == '&') = false := by
    intro c hc
    rw [hc]
    rfl
  have hlines : ∀ ls : List (List Char),
      (ls.map trimEnd).flatMap (List.filter (· == '&')) = ls.flatten.filter (· == '&') := by
    intro ls
    induction ls with
    | nil => rfl
    | cons l ls ih =>
      rw [List.map_cons, List.flatMap_cons, ih, List.flatten_cons, List.filter_append, trimEnd,
        filter_rdropWhile white_ne_amp]
  rw [List.count_eq_length_filter, List.count_eq_length_filter, sanitizePlainText,
    filter_trim white_ne_amp, filter_replaceAll hbreaks hgone rfl, filter_joinLines rfl, hlines]

/-- **An escaped text is decoded once exactly where no line that is kept has an entity** of its
own; the others are decoded twice. -/
theorem decoded_once_iff {s : List Char} (hs : '\x7b' ∉ s) :
    sanitizeHtml (escapeHtml s) = sanitizePlainText s ↔
      ∀ line ∈ keptLines (lines s), ¬ HasEntity laterEntities line := by
  have hlines : lines (decode laterEntities s) = (lines s).map (decode laterEntities) :=
    lines_decode wellFormed_later (outside_later (.inl rfl)) (outside_later (.inr rfl)) s
  rw [sanitizeHtml_escapeHtml hs]
  constructor
  · intro heq line hline hentity
    have hlt := count_keptLines_decode_lt ⟨line, hline, hentity⟩
    rw [← hlines, ← count_sanitizePlainText, ← count_sanitizePlainText, heq] at hlt
    exact lt_irrefl _ hlt
  · intro hnone
    rw [sanitizePlainText, sanitizePlainText, hlines, keptLines_decode_of_none hnone]

omit [Extern] [AmpersandTable] in
theorem ampersandTable_ascii : @AmpersandTable Extern.ascii := by
  let := Extern.ascii
  exact ⟨by decide⟩

omit [Extern] [AmpersandTable] in
/-- A tag in a text is no tag of the HTML. -/
theorem escaped_tag_survives : letI := Extern.ascii
    sanitizeHtml (escapeHtml "Tom & Co <x> &amp; 1".toList) =
      sanitizePlainText "Tom & Co <x> &amp; 1".toList := by
  let := Extern.ascii
  let := ampersandTable_ascii
  exact (decoded_once_iff (by decide)).mpr (by decide +kernel)

omit [Extern] [AmpersandTable] in
/-- A literal entity is decoded twice. -/
theorem entity_decoded_twice : letI := Extern.ascii
    '\x7b' ∉ "&lt;".toList ∧
    sanitizeHtml (escapeHtml "&lt;".toList) ≠ sanitizePlainText "&lt;".toList := by
  let := Extern.ascii
  decide +kernel

end Dinero
