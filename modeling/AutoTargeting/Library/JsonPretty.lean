import AutoTargeting.Library.JsonFields

-- A structure written over several lines. Its values are strings, numbers and the like: arrays and
-- structures in it would have lines of their own.

namespace Json

/-- The lines of the fields: each is indented by two spaces, and ends at a comma but for the last. -/
def prettyFields : List (Bytes × Doc) → Bytes
  | [] => []
  | [(key, d)] => 10 :: 32 :: 32 :: quote :: (key ++ quote :: colon :: 32 :: d.render)
  | (key, d) :: f :: fs =>
    10 :: 32 :: 32 :: quote ::
      (key ++ quote :: colon :: 32 :: (d.render ++ comma :: prettyFields (f :: fs)))

def renderPretty (fields : List (Bytes × Doc)) : Bytes :=
  if fields = [] then [openBrace, closeBrace]
  else openBrace :: (prettyFields fields ++ [10, closeBrace])

def renderStructPretty (fields : List (String × Doc)) : Bytes :=
  renderPretty (fields.map fun f => (escape escapeByte (utf8 f.1), f.2))

theorem parseValue_space (fuel limit : ℕ) (s : Bytes) :
    parseValue fuel limit (32 :: s) = parseValue fuel limit s := by
  cases fuel with
  | zero => rfl
  | succ fuel =>
    have hskip : skipSpace (32 :: s) = skipSpace s := rfl
    rw [parseValue, parseValue, hskip]

theorem parseFields_pretty (key : Bytes) (d : Doc) (fs : List (Bytes × Doc)) (fuel limit : ℕ)
    (rest : Bytes) (h : WellFormedFields ((key, d) :: fs))
    (hfuel : callsFields ((key, d) :: fs) ≤ fuel) :
    parseFields fuel limit (prettyFields ((key, d) :: fs) ++ 10 :: closeBrace :: rest) =
      (readFields limit ((key, d) :: fs)).map (·, rest) := by
  -- a line after the other; the reader skips what indents it
  induction fs generalizing key d fuel with
  | nil =>
    simp only [callsFields] at hfuel
    obtain ⟨fuel, rfl⟩ : ∃ k, fuel = k + 1 := ⟨fuel - 1, by omega⟩
    have hd := parseValue_render d fuel limit (10 :: closeBrace :: rest) h.2.1 (by omega)
      (ends_cons (by decide) _)
    have hkey := splitQuoted_closed h.1 (colon :: 32 :: (d.render ++ 10 :: closeBrace :: rest))
    have hline : prettyFields [(key, d)] ++ 10 :: closeBrace :: rest = 10 :: 32 :: 32 :: quote ::
        (key ++ quote :: (colon :: 32 :: (d.render ++ 10 :: closeBrace :: rest))) := by
      simp [prettyFields]
    have hskip : ∀ s : Bytes, skipSpace (10 :: 32 :: 32 :: quote :: s) = quote :: s := fun _ => rfl
    have hend : skipSpace (10 :: closeBrace :: rest) = closeBrace :: rest := rfl
    rw [hline, parseFields, hskip, readFields]
    simp only [if_true, hkey, Option.bind_eq_bind, Option.bind_some]
    cases readString key with
    | none => rfl
    | some k =>
      simp only [Option.bind_some, skipSpace_cons (show isSpace colon = false by decide), if_true,
        parseValue_space, hd]
      cases d.read limit with
      | none => rfl
      | some v =>
        simp only [Option.map_some, Option.bind_some, hend, if_true,
          if_neg (show closeBrace ≠ comma by decide)]
        rfl
  | cons f fs ih =>
    simp only [callsFields] at hfuel
    obtain ⟨fuel, rfl⟩ : ∃ k, fuel = k + 1 := ⟨fuel - 1, by omega⟩
    have hnext := ih f.1 f.2 fuel h.2.2 (by simp only [callsFields]; omega)
    have hd := parseValue_render d fuel limit
      (comma :: (prettyFields (f :: fs) ++ 10 :: closeBrace :: rest)) h.2.1 (by omega)
      (ends_cons (by decide) _)
    have hkey := splitQuoted_closed h.1
      (colon :: 32 :: (d.render ++ comma :: (prettyFields (f :: fs) ++ 10 :: closeBrace :: rest)))
    have hline : prettyFields ((key, d) :: f :: fs) ++ 10 :: closeBrace :: rest =
        10 :: 32 :: 32 :: quote :: (key ++ quote :: (colon :: 32 ::
          (d.render ++ comma :: (prettyFields (f :: fs) ++ 10 :: closeBrace :: rest)))) := by
      simp [prettyFields]
    have hskip : ∀ s : Bytes, skipSpace (10 :: 32 :: 32 :: quote :: s) = quote :: s := fun _ => rfl
    rw [hline, parseFields, hskip, readFields]
    simp only [if_true, hkey, Option.bind_eq_bind, Option.bind_some]
    cases readString key with
    | none => rfl
    | some k =>
      simp only [Option.bind_some, skipSpace_cons (show isSpace colon = false by decide), if_true,
        parseValue_space, hd]
      cases d.read limit with
      | none => rfl
      | some v =>
        simp only [Option.map_some, Option.bind_some, skipSpace_comma, if_true, hnext]
        cases readFields limit (f :: fs) <;> rfl

theorem length_renderFields_le (fs : List (Bytes × Doc)) :
    (renderFields fs).length ≤ (prettyFields fs).length := by
  induction fs with
  | nil => exact le_rfl
  | cons f fs ih =>
    obtain ⟨key, d⟩ := f
    cases fs with
    | nil =>
      simp only [renderFields, prettyFields, List.length_cons, List.length_append]
      omega
    | cons f fs =>
      simp only [renderFields, prettyFields, List.length_cons, List.length_append] at ih ⊢
      omega

/-- A structure reads the same over several lines. -/
theorem parse_renderPretty {fields : List (Bytes × Doc)} (h : WellFormedFields fields) :
    parse (renderPretty fields) = (Doc.object fields).read maxLevels := by
  cases fields with
  | nil => rfl
  | cons f fs =>
    obtain ⟨key, d⟩ := f
    have hcalls := callsFields_le_length ((key, d) :: fs) h
    have hlonger := length_renderFields_le ((key, d) :: fs)
    have hfields := parseFields_pretty key d fs (renderPretty ((key, d) :: fs)).length 126 [] h (by
      simp only [renderPretty, reduceCtorEq, if_false, List.length_cons, List.length_append]
      omega)
    have hhead : (skipSpace (prettyFields ((key, d) :: fs) ++ [10, closeBrace])).head? =
        some quote := by
      cases fs <;> rfl
    have hne : ¬ some quote = some closeBrace := by decide
    have htext : renderPretty ((key, d) :: fs) =
        openBrace :: (prettyFields ((key, d) :: fs) ++ [10, closeBrace]) := by
      simp [renderPretty]
    rw [parse]
    generalize (renderPretty ((key, d) :: fs)).length = fuel at hfields
    rw [htext, parseValue, skipSpace_cons (by decide)]
    simp only [hhead, hne, maxLevels, if_true, if_false, if_neg (show openBrace ≠ quote by decide),
      if_neg (show openBrace ≠ openBracket by decide), hfields, Doc.read]
    cases readFields 126 ((key, d) :: fs) <;> rfl

theorem parse_renderStructPretty {fields : List (String × Doc)}
    (h : ∀ f ∈ fields, f.2.WellFormed) :
    parse (renderStructPretty fields) = (Doc.struct fields).read maxLevels :=
  parse_renderPretty ((wellFormed_struct fields).mpr h)

end Json
