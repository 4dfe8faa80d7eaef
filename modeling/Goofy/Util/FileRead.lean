import Goofy.Os
import Goofy.Util.Str

/-!
# Reading a file line by line

`util/fileread.h` and `util/fileread.cc`.  The program reads a file with the loop
`while (!eof()) … next()`.  `FileStream.lines` says which references the calls of
`next` return and how the loop ends; `eachLine_eq` turns the loop into a plain
iteration over that list.

`next` drops the last byte of what `getline` returns, and it returns a null
reference where `getline` finds nothing left.
-/

namespace Goofy

open Delimited Effect

namespace Util

/-- An open file: what is left to read, how reading ends, and the end-of-file
indicator. -/
structure OpenFile where
  rest : Bytes
  failure : Option Errno
  atEof : Bool

/-- `getline`: a line with its LF, or what follows the last LF; an error number,
or nothing at the end of the file. -/
def getline (f : OpenFile) : Except Errno (Option Bytes) × OpenFile :=
  if LF ∈ f.rest then
    (.ok (some (upTo LF f.rest ++ [LF])),
      { f with rest := (f.rest.dropWhile (fun b => b ≠ LF)).tail })
  else
    match f.failure with
    | some e => (.error e, f)
    | none =>
        (.ok (if f.rest = [] then none else some f.rest),
          { f with rest := [], atEof := true })

/-- `util::Reader`: the file that it reads, or the null pointer. -/
structure Reader where
  input : Option OpenFile

namespace Reader

/-- A reader over a file that was just opened. -/
def opened (f : FileStream) : Reader :=
  ⟨some ⟨f.data, f.failure, false⟩⟩

def feed {ω : Type} (os : Os ω) (filename : Bytes) : Prog ω Reader := do
  let f ← sysCall (lit "fopen " ++ cStr filename) (os.fopen (cStr filename))
  pure (opened f)

theorem exec_feed_ok {ω : Type} {os : Os ω} {filename : Bytes} {w w' : ω} {f : FileStream}
    (h : os.fopen (cStr filename) w = (.ok f, w')) :
    Prog.exec (feed os filename) w = (.ok (opened f), w') := by
  rw [feed, sysCall, Prog.exec_bind_ok (exec_sysCallWith_ok _ h)]
  rfl

theorem exec_feed_error {ω : Type} {os : Os ω} {filename : Bytes} {w w' : ω} {e : Errno}
    (h : os.fopen (cStr filename) w = (.error e, w')) :
    Prog.exec (feed os filename) w =
      (.error (.exn (.ioError (lit "fopen " ++ cStr filename) e)), w') := by
  rw [feed, sysCall, Prog.exec_bind_error (exec_sysCallWith_error _ h)]

def next (r : Reader) : Except Exn (StrRef × Reader) :=
  match r.input with
  | none => .ok (⟨none⟩, r)
  | some f =>
      match getline f with
      | (.error e, _) =>
          if e ≠ 0 then .error (.ioError (lit "getline") e)
          else .ok (⟨none⟩, ⟨none⟩)
      | (.ok none, _) => .ok (⟨none⟩, ⟨none⟩)
      | (.ok (some line), f') => .ok (.of line.dropLast, ⟨some f'⟩)

def eof (r : Reader) : Bool :=
  match r.input with
  | none => true
  | some f => f.atEof

/-- The rounds of the loop `while (!eof()) parse(next())`. -/
def eachLine {τ : Type} (parse : StrRef → Prog τ Unit) : Nat → Reader → Prog τ Unit
  | 0, _ => throw .hang
  | fuel + 1, r =>
      if r.eof then pure ()
      else
        match r.next with
        | .error e => throw (.exn e)
        | .ok (line, r') => do
            parse line
            eachLine parse fuel r'

/-- The whole loop: a round for each byte is enough, the end takes two more. -/
def forEachLine {τ : Type} (parse : StrRef → Prog τ Unit) (r : Reader) : Prog τ Unit :=
  eachLine parse ((r.input.elim 0 (fun f => f.rest.length)) + 2) r

end Reader

end Util

/-- What `next` returns for what follows the last LF, and the error instead. -/
def FileStream.lastLine (tail : Bytes) :
    Option Errno → List Util.StrRef × Option Exn
  | some e =>
      if e ≠ 0 then ([], some (.ioError (lit "getline") e)) else ([⟨none⟩], none)
  | none => if tail = [] then ([⟨none⟩], none) else ([.of tail.dropLast], none)

/-- What successive calls of `next` return until the end of the file, and the
error that ends the loop. -/
def FileStream.lines (f : FileStream) : List Util.StrRef × Option Exn :=
  let parts := f.data.splitOn LF
  let last := lastLine (parts.getLastD []) f.failure
  (parts.dropLast.map Util.StrRef.of ++ last.1, last.2)

/-- The end of an iteration: normal, or by an exception. -/
def finish {τ : Type} : Option Fail → Prog τ Unit
  | none => pure ()
  | some f => throw f

open Util Util.Reader

section EachLine

variable {τ : Type} (parse : Util.StrRef → Prog τ Unit) (failure : Option Errno)

theorem FileStream.lines_append_cons {a : Bytes} (ha : LF ∉ a) (b : Bytes) :
    (⟨a ++ LF :: b, failure⟩ : FileStream).lines =
      (.of a :: (⟨b, failure⟩ : FileStream).lines.1,
        (⟨b, failure⟩ : FileStream).lines.2) := by
  have hparts : (a ++ LF :: b).splitOn LF = a :: b.splitOn LF :=
    List.splitOn_append_cons_self_of_not_mem ha b
  obtain ⟨p, ps, hb⟩ : ∃ p ps, b.splitOn LF = p :: ps := by
    cases hsplit : b.splitOn LF with
    | nil => exact absurd hsplit (List.splitOn_ne_nil LF b)
    | cons p ps => exact ⟨p, ps, rfl⟩
  simp [lines, hparts, hb]

theorem FileStream.lines_of_not_mem {a : Bytes} (ha : LF ∉ a) :
    (⟨a, failure⟩ : FileStream).lines = lastLine a failure := by
  simp [lines, List.splitOn_eq_singleton ha]

/-- A file ends early only where `getline` fails. -/
theorem FileStream.lines_error (f : FileStream) {e : Exn} (h : f.lines.2 = some e) :
    ∃ errno, e = .ioError (lit "getline") errno := by
  have hlast : (lastLine ((f.data.splitOn LF).getLastD []) f.failure).2 = some e := h
  cases hfailure : f.failure with
  | some errno =>
      rw [hfailure, lastLine] at hlast
      split_ifs at hlast
      exact ⟨errno, (Option.some.inj hlast).symm⟩
  | none =>
      rw [hfailure, lastLine] at hlast
      split_ifs at hlast

/-- With enough rounds the loop visits the lines of the file and ends. -/
theorem eachLine_eq :
    ∀ (fuel : Nat) (data : Bytes), data.length + 2 ≤ fuel →
      eachLine parse fuel (.opened ⟨data, failure⟩) =
        (forM (⟨data, failure⟩ : FileStream).lines.1 parse >>= fun _ =>
          finish ((⟨data, failure⟩ : FileStream).lines.2.map Fail.exn))
  | 0, _, hfuel => by omega
  | 1, _, hfuel => by omega
  | fuel + 2, data, hfuel => by
      by_cases hmem : LF ∈ data
      · obtain ⟨a, b, rfl, ha⟩ := List.eq_append_cons_of_mem hmem
        have hline : upTo LF (a ++ LF :: b) = a := by
          rw [upTo_append_of_not_mem ha]
          simp [upTo]
        have hrest : ((a ++ LF :: b).dropWhile (fun c => c ≠ LF)).tail = b := by
          rw [List.dropWhile_append_of_pos]
          · simp
          · intro c hc
            have hne : c ≠ LF := fun h => ha (h ▸ hc)
            simpa using hne
        have hnext : (opened ⟨a ++ LF :: b, failure⟩).next =
            .ok (.of a, opened ⟨b, failure⟩) := by
          simp only [next, opened, getline, if_pos hmem, hline, hrest,
            List.dropLast_concat]
        have hfuel' : b.length + 2 ≤ fuel + 1 := by
          simp only [List.length_append, List.length_cons] at hfuel
          omega
        have heof : (opened ⟨a ++ LF :: b, failure⟩).eof = false := by
          rfl
        rw [eachLine, heof, hnext, FileStream.lines_append_cons failure ha]
        simp only [Bool.false_eq_true, if_false]
        rw [eachLine_eq (fuel + 1) b hfuel']
        simp
      · rw [FileStream.lines_of_not_mem failure hmem, eachLine]
        simp only [eof, opened, Bool.false_eq_true, if_false]
        cases failure with
        | some e =>
            by_cases he : e = 0
            · simp [next, getline, hmem, he, FileStream.lastLine, eachLine, eof, finish]
            · simp [next, getline, hmem, he, FileStream.lastLine, finish]
        | none =>
            by_cases hnil : data = []
            · simp [next, getline, hnil, FileStream.lastLine, eachLine, eof, finish]
            · simp [next, getline, hmem, hnil, FileStream.lastLine, eachLine, eof, finish]

/-- Reading a file that was just opened visits its lines. -/
theorem forEachLine_opened (f : FileStream) :
    forEachLine parse (opened f) =
      (forM f.lines.1 parse >>= fun _ => finish (f.lines.2.map Fail.exn)) :=
  eachLine_eq parse f.failure _ f.data (by rfl)

end EachLine

namespace Util

/-- The lines of a content: what follows the last LF is one, unless it is empty. -/
def contentLines (content : Bytes) : List Bytes :=
  let parts := content.splitOn LF
  if parts.getLastD [] = [] then parts.dropLast else parts

/-- Keep the references that the loop hands over. -/
def record (line : StrRef) : Prog (List StrRef) Unit :=
  Prog.prim (fun refs => (.ok (), refs ++ [line]))

/-- The outcome of reading a whole file, and the references it handed over. -/
def readLines (content : Bytes) : Except Fail Unit × List StrRef :=
  Prog.exec (forEachLine record (opened ⟨content, none⟩)) []

/-- The loop ends, and it handed over the lines of the content. -/
def ReadsLines (content : Bytes) : Prop :=
  ∃ refs, readLines content = (.ok (), refs) ∧ refs.map StrRef.str = contentLines content

theorem exec_forM_record (lines refs : List StrRef) :
    Prog.exec (forM lines record) refs = (.ok (), refs ++ lines) := by
  induction lines generalizing refs with
  | nil => simp
  | cons line lines ih =>
      have hline : Prog.exec (record line) refs = (.ok (), refs ++ [line]) :=
        Prog.exec_prim _ _
      rw [List.forM_cons, Prog.exec_bind_ok hline, ih]
      simp

/-- The loop always ends.  It hands over the lines and a null reference when the
content ends in LF or is empty, and otherwise the lines without their last byte. -/
theorem readLines_eq (content : Bytes) :
    ∃ lines tail, LF ∉ tail ∧ content.splitOn LF = lines ++ [tail] ∧
      readLines content =
        (.ok (), lines.map .of ++ [if tail = [] then ⟨none⟩ else .of tail.dropLast]) := by
  obtain ⟨lines, tail, hsplit⟩ : ∃ lines tail, content.splitOn LF = lines ++ [tail] :=
    ⟨_, _, (List.dropLast_concat_getLast (List.splitOn_ne_nil LF content)).symm⟩
  have htail : LF ∉ tail :=
    not_mem_of_mem_splitOn LF (by simp [hsplit] : tail ∈ content.splitOn LF)
  refine ⟨lines, tail, htail, hsplit, ?_⟩
  have hlines : (⟨content, none⟩ : FileStream).lines =
      (lines.map .of ++ [if tail = [] then ⟨none⟩ else .of tail.dropLast], none) := by
    by_cases hnil : tail = []
    · simp [FileStream.lines, FileStream.lastLine, hsplit, hnil]
    · simp [FileStream.lines, FileStream.lastLine, hsplit, hnil]
  rw [readLines, forEachLine_opened, hlines]
  exact Prog.exec_bind_ok (exec_forM_record _ [])

/-- No file is read as its lines. -/
theorem not_readsLines (content : Bytes) :
    ¬ ReadsLines content := by
  rintro ⟨refs, hread, hlines⟩
  obtain ⟨lines, tail, -, hsplit, hread'⟩ := readLines_eq content
  obtain rfl := congrArg Prod.snd (hread'.symm.trans hread)
  have hlength := congrArg List.length hlines
  by_cases hnil : tail = []
  · simp [contentLines, hsplit, hnil] at hlength
  · have hlast : tail.dropLast = tail := by
      simp only [contentLines, hsplit, hnil, List.getLastD_concat, List.map_append,
        List.map_cons, List.map_nil, if_false] at hlines
      have hboth := List.append_inj' hlines (by simp)
      simpa using hboth.2
    have hshort := congrArg List.length hlast
    rw [List.length_dropLast] at hshort
    have hpos := List.length_pos_iff.mpr hnil
    omega

/-- Without an LF at the end of the file the last byte is lost, and with it a null
reference follows the lines. -/
theorem readLines_a :
    contentLines (lit "a") = [lit "a"] ∧
      readLines (lit "a") = (.ok (), [.of []]) ∧
      contentLines (lit "a\n") = [lit "a"] ∧
      readLines (lit "a\n") = (.ok (), [.of (lit "a"), ⟨none⟩]) :=
  ⟨by decide, by rfl, by decide, by rfl⟩

end Util

end Goofy
