/-
**What a count keeps.**

The statement that counts the rows of another keeps what comes before the first word, and all from
the first `FROM` on that stands in code and outside parentheses.  The text between is dropped, with
the values that its markers bind.  They are found by reading that text alone, and the rest is read
alone when the statement is bound.  Both readings find what one reading of the whole finds, since a
`FROM` begins in code: markers are then cut where the text is cut.

Main definitions:

* `SqlAccess.Sql.boundFrom` — the values that the markers of a text bind from a place on.

Main results:

* `SqlAccess.Sql.markerPlaces_append` — **the markers of two texts put together**, if the first
  leads to code;
* `SqlAccess.Sql.exists_leading` — what comes before the first word;
* `SqlAccess.Sql.countStatement_keeps_tail` — **a count keeps the text from the first `FROM` on and
  the values bound there**, and fails only where there is no such `FROM`.
-/

import SqlAccess.Proofs.Postgres.Numbering
import SqlAccess.Proofs.Sql.Keyword
import SqlAccess.Sql.Paging

set_option autoImplicit false

namespace SqlAccess.Sql

variable {cs ds : List Char}

/-! ### Markers of texts put together -/

section Reader

variable {σ : Type} [DecidableEq σ]

/-- Where markers are found depends on where the text stands by a shift only. -/
theorem marksFrom_add (next : σ → Char → Option Char → σ) (code s : σ) (k place : Nat)
    (cs : List Char) :
    marksFrom next code s (k + place) cs = (marksFrom next code s place cs).map (k + ·) := by
  induction cs generalizing s place with
  | nil => rfl
  | cons c cs ih =>
      rw [marksFrom, marksFrom, Nat.add_assoc, ih]
      split <;> rfl

end Reader

theorem marksFrom_append (p : Place) (place : Nat) (cs ds : List Char) :
    marksFrom Mode.next .code p.mode place (cs ++ ds) =
      marksFrom Mode.next .code p.mode place cs ++
        marksFrom Mode.next .code (p.past ds.head? cs).mode (place + cs.length) ds := by
  induction cs generalizing p place with
  | nil => rfl
  | cons c cs ih =>
      have hrest :
          marksFrom Mode.next .code (p.mode.next c (cs ++ ds).head?) (place + 1) (cs ++ ds) =
          marksFrom Mode.next .code (p.mode.next c cs.head?) (place + 1) cs ++
            marksFrom Mode.next .code (p.past ds.head? (c :: cs)).mode
              (place + (c :: cs).length) ds := by
        have hplace : place + (c :: cs).length = place + 1 + cs.length := by
          rw [List.length_cons]
          omega
        rw [hplace, Place.past, ← List.head?_append]
        refine (ih (p.next c (cs ++ ds).head?) (place + 1)).trans ?_
        -- what comes after the last character makes no difference to what is found up to there
        cases cs <;> rfl
      rw [List.cons_append, marksFrom, marksFrom, hrest]
      split <;> rfl

/-- The markers of two texts put together, if the first leads to code at whatever depth. -/
theorem markerPlaces_append_of_code (h : (Place.start.past ds.head? cs).mode = .code) :
    markerPlaces (cs ++ ds) = markerPlaces cs ++ (markerPlaces ds).map (cs.length + ·) := by
  have happend := marksFrom_append .start 0 cs ds
  rw [h, Nat.zero_add, ← Nat.add_zero cs.length, marksFrom_add] at happend
  rw [markerPlaces_eq_marksFrom, markerPlaces_eq_marksFrom, markerPlaces_eq_marksFrom]
  exact happend

theorem markerCount_append_of_code (h : (Place.start.past ds.head? cs).mode = .code) :
    markerCount (cs ++ ds) = markerCount cs + markerCount ds := by
  rw [← length_markerPlaces, markerPlaces_append_of_code h, List.length_append, List.length_map,
    length_markerPlaces, length_markerPlaces]

/-- **The markers of two texts put together** are those of both, if the first leads to code. -/
theorem markerPlaces_append (h : Place.start.past ds.head? cs = .start) :
    markerPlaces (cs ++ ds) = markerPlaces cs ++ (markerPlaces ds).map (cs.length + ·) :=
  markerPlaces_append_of_code (congrArg Place.mode h)

theorem markerCount_append (h : Place.start.past ds.head? cs = .start) :
    markerCount (cs ++ ds) = markerCount cs + markerCount ds :=
  markerCount_append_of_code (congrArg Place.mode h)

theorem lt_length_of_mem_markerPlaces {place : Nat} (h : place ∈ markerPlaces cs) :
    place < cs.length :=
  (List.getElem?_eq_some_iff.1 (getElem?_of_mem_markerPlaces h)).1

/-! ### Values bound -/

/-- The values that the markers of a text bind which stand in some place or after it. -/
def boundFrom {α : Type} (place : Nat) (cs : List Char) (args : List α) : List α :=
  (((markerPlaces cs).zip args).filter fun bound => place ≤ bound.1).map Prod.snd

/-- The markers after a cut bind the values that are left without those bound before. -/
theorem boundFrom_append {α : Type} {args : List α} (h : Place.start.past ds.head? cs = .start)
    (hlength : args.length = markerCount (cs ++ ds)) :
    boundFrom cs.length (cs ++ ds) args = args.drop (markerCount cs) := by
  rw [markerCount_append h] at hlength
  -- the places before the cut are below its length, and those after it are not
  have hbefore : ((markerPlaces cs).zip (args.take (markerCount cs))).filter
      (fun bound => cs.length ≤ bound.1) = [] := by
    rw [List.filter_eq_nil_iff]
    rintro ⟨place, value⟩ hbound
    have hlt := lt_length_of_mem_markerPlaces (List.of_mem_zip hbound).1
    simpa using hlt
  have hafter : (((markerPlaces ds).map (cs.length + ·)).zip (args.drop (markerCount cs))).filter
      (fun bound => cs.length ≤ bound.1) =
        ((markerPlaces ds).map (cs.length + ·)).zip (args.drop (markerCount cs)) := by
    rw [List.filter_eq_self]
    rintro ⟨place, value⟩ hbound
    obtain ⟨k, -, rfl⟩ := List.mem_map.1 (List.of_mem_zip hbound).1
    simp
  have hcut : (markerPlaces cs).length = (args.take (markerCount cs)).length := by
    rw [length_markerPlaces, List.length_take, hlength]
    omega
  calc boundFrom cs.length (cs ++ ds) args
      = boundFrom cs.length (cs ++ ds)
          (args.take (markerCount cs) ++ args.drop (markerCount cs)) := by
        rw [List.take_append_drop]
    _ = (((markerPlaces ds).map (cs.length + ·)).zip
          (args.drop (markerCount cs))).map Prod.snd := by
        rw [boundFrom, markerPlaces_append h, List.zip_append hcut, List.filter_append, hbefore,
          hafter, List.nil_append]
    _ = args.drop (markerCount cs) := by
        refine List.map_snd_zip ?_
        rw [List.length_drop, List.length_map, length_markerPlaces, hlength]
        omega

/-! ### Before the first word -/

theorem exists_of_skipOne? (h : skipOne? cs = some ds) : ∃ leading, cs = leading ++ ds := by
  have hend : ∃ leading : List Char, cs = leading ++ [] := ⟨cs, (List.append_nil cs).symm⟩
  unfold skipOne? at h
  split at h
  · split at h <;> cases h
    · rename_i before hcut
      exact ⟨before ++ ['\n'], by simpa using Text.eq_of_cut? hcut⟩
    · exact hend
  · split at h <;> cases h
    · rename_i before hcut
      exact ⟨before ++ ['*', '/'], Text.eq_of_cutAt? hcut⟩
    · exact hend
  · cases h
    exact ⟨['('], rfl⟩
  · cases h

/-- What comes before the first word. -/
theorem exists_leading (cs : List Char) : ∃ leading, cs = leading ++ skipLeading cs := by
  have hblanks (cs : List Char) :
      cs = cs.takeWhile Text.isBlank ++ Text.trimStart cs :=
    List.takeWhile_append_dropWhile.symm
  fun_induction skipLeading cs with
  | case1 cs rest hskip ih =>
      obtain ⟨skipped, hskipped⟩ := exists_of_skipOne? hskip
      obtain ⟨leading, hleading⟩ := ih
      refine ⟨cs.takeWhile Text.isBlank ++ (skipped ++ leading), ?_⟩
      rw [List.append_assoc, List.append_assoc, ← hleading, ← hskipped]
      exact hblanks cs
  | case2 cs _ => exact ⟨cs.takeWhile Text.isBlank, hblanks cs⟩

/-! ### The count -/

/-- A statement without its end, from its first word on. -/
def bodyOf (sql : String) : List Char := skipLeading (withoutEnd sql.toList)

theorem lettered_from : Lettered ["FROM".toList] := by
  intro keyword hkeyword
  obtain rfl := List.mem_singleton.1 hkeyword
  exact ⟨'F', "ROM".toList, rfl, rfl⟩

variable {sql : String} {leading dropped tail : List Char}

theorem countStatement_of_none (h : findKeyword? ["FROM".toList] (bodyOf sql) = none)
    (args : List Value) : ∃ fault, countStatement sql args = .error fault := by
  rw [bodyOf] at h
  simp only [countStatement, h]
  exact ⟨_, rfl⟩

theorem countStatement_of_some (hleading : withoutEnd sql.toList = leading ++ bodyOf sql)
    (h : findKeyword? ["FROM".toList] (bodyOf sql) = some (dropped, tail)) (args : List Value) :
    countStatement sql args =
      .ok ⟨String.ofList leading ++ "SELECT COUNT(*) " ++ String.ofList tail,
        args.drop (markerCount dropped)⟩ := by
  have htake : (withoutEnd sql.toList).take
      ((withoutEnd sql.toList).length - (bodyOf sql).length) = leading := by
    rw [hleading, List.length_append, Nat.add_sub_cancel_right, List.take_left]
  rw [bodyOf] at h htake
  simp only [countStatement, h, htake]

/-- **A count keeps the text from the first `FROM` on and the values bound there**: the last ones,
as many as there are markers.  It fails just where there is no such `FROM`. -/
theorem countStatement_keeps_tail (sql : String) (args : List Value) :
    ((∃ fault, countStatement sql args = .error fault) ↔
      ∀ dropped tail, bodyOf sql = dropped ++ tail → ¬ KeywordAt ["FROM".toList] dropped tail) ∧
    ∀ counted, countStatement sql args = .ok counted →
      args.length = markerCount (bodyOf sql) →
      ∃ leading dropped tail,
        withoutEnd sql.toList = leading ++ bodyOf sql ∧
        FirstCut (KeywordAt ["FROM".toList]) (bodyOf sql) dropped tail ∧
        counted.sql.toList = leading ++ "SELECT COUNT(*) ".toList ++ tail ∧
        counted.args = args.drop (args.length - markerCount tail) ∧
        counted.args.length = markerCount tail ∧
        counted.args = boundFrom dropped.length (bodyOf sql) args := by
  obtain ⟨leading, hleading⟩ := exists_leading (withoutEnd sql.toList)
  cases hfind : findKeyword? ["FROM".toList] (bodyOf sql) with
  | none =>
      have hnone := (findKeyword?_eq_none_iff lettered_from).1 hfind
      obtain ⟨fault, hfault⟩ := countStatement_of_none hfind args
      refine ⟨iff_of_true ⟨fault, hfault⟩ hnone, fun counted hcounted => ?_⟩
      exact nomatch hfault.symm.trans hcounted
  | some cut =>
      obtain ⟨dropped, tail⟩ := cut
      have hfirst := (findKeyword?_eq_some_iff lettered_from).1 hfind
      have hrun := countStatement_of_some hleading hfind args
      constructor
      · refine iff_of_false ?_ fun hnone => hnone dropped tail hfirst.eq hfirst.holds
        rintro ⟨fault, hfault⟩
        exact nomatch hfault.symm.trans hrun
      · intro counted hcounted hlength
        obtain rfl := Except.ok.inj (hrun.symm.trans hcounted)
        -- a `FROM` begins in code, so that the markers are cut with the text
        have hcode := hfirst.holds.1
        rw [hfirst.eq] at hlength ⊢
        have hcount := markerCount_append hcode
        have hkept : args.length - markerCount tail = markerCount dropped := by omega
        refine ⟨leading, dropped, tail, ?_, ?_, ?_, ?_, ?_, ?_⟩
        · rw [← hfirst.eq]
          exact hleading
        · rw [← hfirst.eq]
          exact hfirst
        · simp
        · rw [hkept]
        · rw [List.length_drop]
          omega
        · exact (boundFrom_append hcode hlength).symm

/-- The select list holds a subquery with a `FROM` and a marker of its own, a quoted and a commented
question mark, and a `FROM` in a comment. -/
def subquerySql : String :=
  "(-- ?\nSELECT '?', (SELECT ? FROM u) /* FROM ? */ FROM t WHERE b = ?; "

theorem countStatement_of_subquery :
    ∃ counted, countStatement subquerySql [.int 1, .int 2] = .ok counted ∧
      counted.sql = "(-- ?\nSELECT COUNT(*) FROM t WHERE b = ?" ∧
      counted.args.map Value.render = ["2"] := by
  have hwhole : withoutEnd subquerySql.toList = "(-- ?\n".toList ++ bodyOf subquerySql := by
    decide +kernel
  have hfind : findKeyword? ["FROM".toList] (bodyOf subquerySql) =
      some ("SELECT '?', (SELECT ? FROM u) /* FROM ? */ ".toList, "FROM t WHERE b = ?".toList) := by
    decide +kernel
  have hrun := countStatement_of_some hwhole hfind [.int 1, .int 2]
  obtain ⟨leading, dropped, tail, hleading, hfirst, hsql, hargs, -, -⟩ :=
    (countStatement_keeps_tail subquerySql [.int 1, .int 2]).2 _ hrun (by decide +kernel)
  obtain ⟨rfl, rfl⟩ := hfirst.unique ((findKeyword?_eq_some_iff lettered_from).1 hfind)
  rw [hwhole] at hleading
  obtain rfl := List.append_cancel_right hleading
  refine ⟨_, hrun, String.toList_inj.1 (hsql.trans (by decide)), ?_⟩
  rw [hargs]
  decide +kernel

end SqlAccess.Sql
