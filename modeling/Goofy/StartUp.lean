import Goofy.Lib.Transition
import Goofy.Loader
import Goofy.SettingsFile

/-!
# Starting the program

The `main` of `main.cc`: it reads `settings.conf`, or writes the defaults when there is no
such file, builds the server, loads the root gophermap and runs the event loop.  It ends
with an exit status that was thrown as an `int`; nobody catches anything else.

One start of the program is a step on the settings file.  Whatever becomes of them, all
starts after a first one that had its settings have the same settings (`starts_agree`).
-/

namespace Goofy

open Effect Gopher Transition

/-- What is thrown up to `main`: an exit status, or what ends the program. -/
inductive Thrown where
  | status (code : Nat)
  | failure (f : Fail)

/-- What a start finds outside of the program, its settings file aside. -/
structure Start (cfg : LibConfig) (ω : Type) where
  /-- The member that the default constructor leaves uninitialised. -/
  sockReusable : Bool
  /-- `stat` fails although the file is there. -/
  statFails : Bool
  /-- What a write that fails leaves of the settings file. -/
  debris : Option cfg.File
  /-- What `magic_open` fails with, if it does. -/
  magicOpen : Except Errno Unit
  /-- `evconnlistener_new_bind` gives a listener. -/
  listens : Bool
  os : Os ω
  world : ω
  /-- What `event_base_dispatch` returns. -/
  dispatched : Int

section Main

variable {ω : Type} {cfg : LibConfig}

/-- A program whose state is the settings file. -/
abbrev Starting (cfg : LibConfig) : Type → Type :=
  Effect.Prog Thrown (Option cfg.File)

/-- A part of the program that throws no exit status. -/
def failing {α : Type} (x : Except Fail α) : Starting cfg α :=
  Prog.lift (x.mapError .failure)

/-- The file, when `stat` finds it. -/
def found (start : Start cfg ω) : Starting cfg (Option cfg.File) :=
  Prog.prim (fun file => (.ok (if start.statFails then none else file), file))

/-- `Settings::save`, to the settings file. -/
def saveSettings (c : Inet) (start : Start cfg ω) (settings : ServerSettings) :
    Starting cfg Unit :=
  Prog.prim (fun _ =>
    match settings.save c cfg with
    | .error f => (.error (.failure f), start.debris)
    | .ok written => (.ok (), some written))

def tryload (c : Inet) (start : Start cfg ω) : Starting cfg ServerSettings := do
  match ← found start with
  | some file => failing ((ServerSettings.load c cfg file).mapError .exn)
  | none =>
      let defaults ← failing ((ServerSettings.default c start.sockReusable).mapError .exn)
      saveSettings c start defaults
      pure defaults

/-- The constructor of `TypeGuesser`. -/
def TypeGuesser.create (start : Start cfg ω) : Except Exn Unit :=
  start.magicOpen.mapError (.ioError (lit "magic_open"))

/-- The constructor of `Server`: its map, its type guesser, and then the listener. -/
def Server.create (settings : ServerSettings) (start : Start cfg ω) : Starting cfg Map := do
  let gopherMap ← failing ((Map.create settings.toSettings).mapError .exn)
  failing ((TypeGuesser.create start).mapError .exn)
  if start.listens then pure gopherMap else throw (.status 1)

/-- `Server::start`: the loop, and the status that it ends with. -/
def Server.start (dispatched : Int) : Starting cfg Unit :=
  if dispatched = -1 then throw (.status 1)
  else if dispatched = 0 then throw (.status 0)
  else if dispatched = 1 then throw (.status 0)
  else pure ()

/-- The `try` block of `main`. -/
def mainBody (c : Inet) (start : Start cfg ω) : Starting cfg Nat := do
  let settings ← tryload c start
  let gopherMap ← Server.create settings start
  failing (Prog.exec (Loader.load start.os settings.toSettings) (gopherMap, start.world)).1
  Server.start start.dispatched
  pure 0

/-- `main`: the exit status. -/
def main (c : Inet) (start : Start cfg ω) : Starting cfg Nat :=
  tryCatch (mainBody c start) (fun e =>
    match e with
    | .status code => pure code
    | .failure f => throw (.failure f))

/-- Starting the program again and again: a step is one start, however it ends. -/
def restarts (ω : Type) (c : Inet) (cfg : LibConfig) :
    System (Option cfg.File) (Start cfg ω) where
  init _ := True
  step file start file' := (Prog.exec (main c start) file).2 = file'

end Main

section Restarts

variable {ω : Type} {c : Inet} {cfg : LibConfig} {start : Start cfg ω}

/-- Behind `tryload`, nothing writes the settings file. -/
theorem preserves_rest
    (settings : ServerSettings) (written : Option cfg.File) :
    Preserves (fun file => file = written)
      (Server.create settings start >>= fun gopherMap =>
        failing (Prog.exec (Loader.load start.os settings.toSettings)
            (gopherMap, start.world)).1 >>= fun _ =>
          Server.start start.dispatched >>= fun _ =>
            (pure 0 : Starting cfg Nat)) := by
  have hcreate : Preserves (fun file => file = written)
      (Server.create settings start) := by
    refine (Preserves.lift _).bind (fun gopherMap => (Preserves.lift _).bind (fun _ => ?_))
    split_ifs
    · exact Preserves.pure _
    · exact Preserves.throw _
  have hstart : Preserves (fun file => file = written)
      (Server.start start.dispatched : Starting cfg Unit) := by
    unfold Server.start
    split_ifs
    · exact Preserves.throw _
    · exact Preserves.throw _
    · exact Preserves.throw _
    · exact Preserves.pure _
  exact hcreate.bind (fun _ => (Preserves.lift _).bind (fun _ =>
    hstart.bind (fun _ => Preserves.pure _)))

/-- However a start ends, it leaves the settings file that `tryload` left. -/
theorem exec_main_snd
    (start : Start cfg ω) (file : Option cfg.File) :
    (Prog.exec (main c start) file).2 = (Prog.exec (tryload c start) file).2 := by
  have hcatch : (Prog.exec (main c start) file).2 =
      (Prog.exec (mainBody c start) file).2 := by
    rw [main, Prog.exec_tryCatch]
    rcases Prog.exec (mainBody c start) file with ⟨res, written⟩
    cases res with
    | ok code => rfl
    | error e =>
        cases e with
        | status code => rfl
        | failure f => rfl
  rw [hcatch, mainBody, Prog.exec_bind]
  rcases Prog.exec (tryload c start) file with ⟨res, written⟩
  cases res with
  | error e => rfl
  | ok settings => exact preserves_rest settings written written rfl

/-- A file that is there is read, and stays as it is. -/
theorem exec_tryload_some
    (hstat : start.statFails = false) (file : cfg.File) :
    Prog.exec (tryload c start) (some file) =
      (((ServerSettings.load c cfg file).mapError .exn).mapError .failure, some file) := by
  have hfound : Prog.exec (found start) (some file) = (.ok (some file), some file) := by
    simp [found, hstat]
  rw [tryload, Prog.exec_bind_ok hfound]
  rfl

/-- Without one, the defaults are written. -/
theorem of_exec_tryload_defaults
    {file : Option cfg.File} (hnone : Prog.exec (found start) file = (.ok none, file))
    {settings : ServerSettings} {file' : Option cfg.File}
    (h : Prog.exec (tryload c start) file = (.ok settings, file')) :
    ServerSettings.default c start.sockReusable = .ok settings ∧
      ∃ written, file' = some written ∧ settings.save c cfg = .ok written := by
  rw [tryload, Prog.exec_bind_ok hnone] at h
  obtain ⟨defaults, file₁, hdefault, h⟩ := (Prog.exec_bind_eq_ok_iff _ _ _ _ _).mp h
  obtain ⟨_, file₂, hsave, h⟩ := (Prog.exec_bind_eq_ok_iff _ _ _ _ _).mp h
  simp only [Prog.exec_pure, Prod.mk.injEq, Except.ok.injEq] at h
  obtain ⟨rfl, rfl⟩ := h
  constructor
  · cases hcreate : ServerSettings.default c start.sockReusable with
    | error e => simp [failing, hcreate, Except.mapError] at hdefault
    | ok found =>
        simp only [failing, hcreate, Except.mapError, Prog.exec_lift, Prod.mk.injEq,
          Except.ok.injEq] at hdefault
        rw [hdefault.1]
  · cases hwritten : defaults.save c cfg with
    | error f => simp [saveSettings, hwritten] at hsave
    | ok written =>
        simp only [saveSettings, hwritten, Prog.exec_prim, Prod.mk.injEq, true_and] at hsave
        exact ⟨written, hsave.symm, rfl⟩

/-- Defaults that were written load as they are. -/
theorem load_of_save_default
    (hc : c.Lawful) (hcfg : cfg.Lawful)
    {sockReusable : Bool} {settings : ServerSettings} {written : cfg.File}
    (hdefault : ServerSettings.default c sockReusable = .ok settings)
    (hsave : settings.save c cfg = .ok written) :
    ServerSettings.load c cfg written = .ok settings := by
  obtain ⟨tree, htree, hload⟩ :=
    (ServerSettings.storable_of_default hdefault).load_save hc hcfg
  rw [htree] at hsave
  cases hwrite : cfg.writeFile tree with
  | error e => simp [hwrite, Except.mapError] at hsave
  | ok file =>
      rw [hwrite] at hsave
      obtain rfl := Except.ok.inj hsave
      exact hload file hwrite

/-- After `tryload`, the settings file is there, and it loads as the settings. -/
theorem load_of_tryload
    (hc : c.Lawful) (hcfg : cfg.Lawful)
    {file file' : Option cfg.File} {settings : ServerSettings}
    (h : Prog.exec (tryload c start) file = (.ok settings, file')) :
    ∃ written, file' = some written ∧ ServerSettings.load c cfg written = .ok settings := by
  have hdefaults (hnone : Prog.exec (found start) file = (.ok none, file)) :
      ∃ written, file' = some written ∧
        ServerSettings.load c cfg written = .ok settings := by
    obtain ⟨hdefault, written, hfile', hsave⟩ := of_exec_tryload_defaults hnone h
    exact ⟨written, hfile', load_of_save_default hc hcfg hdefault hsave⟩
  cases file with
  | none => exact hdefaults (by simp [found])
  | some old =>
      cases hstat : start.statFails with
      | true => exact hdefaults (by simp [found, hstat])
      | false =>
          rw [exec_tryload_some hstat] at h
          cases hload : ServerSettings.load c cfg old with
          | error e => simp [hload, Except.mapError] at h
          | ok loaded =>
              simp only [hload, Except.mapError, Prod.mk.injEq, Except.ok.injEq] at h
              obtain ⟨rfl, rfl⟩ := h
              exact ⟨old, rfl, hload⟩

end Restarts

/-- Once a start had its settings, read or written by itself, every later start has equal
settings, whatever became of the starts between them, and the file stays as it is. -/
theorem starts_agree
    {ω : Type} {c : Inet} {cfg : LibConfig} (hc : c.Lawful) (hcfg : cfg.Lawful)
    {first next : Start cfg ω} {between : List (Start cfg ω)}
    {file file₁ file₂ : Option cfg.File} {settings : ServerSettings}
    (hfirst : Prog.exec (tryload c first) file = (.ok settings, file₁))
    (hrun : Run ((restarts ω c cfg).restrict (fun _ start => start.statFails = false))
      file₁ between file₂)
    (hstat : next.statFails = false) :
    file₂ = file₁ ∧ Prog.exec (tryload c next) file₂ = (.ok settings, file₂) := by
  obtain ⟨written, rfl, hload⟩ := load_of_tryload hc hcfg hfirst
  have hstep : ∀ (s : Option cfg.File) start t, s = some written →
      ((restarts ω c cfg).restrict (fun _ start => start.statFails = false)).step s start t →
        t = some written := by
    rintro s start t rfl ⟨hstat, hstep⟩
    rw [← hstep, exec_main_snd, exec_tryload_some hstat]
  have hfile := hrun.invariant hstep rfl
  refine ⟨hfile, ?_⟩
  rw [hfile, exec_tryload_some hstat, hload]
  rfl

/-- A start on a system without any file. -/
def bareStart (sockReusable listens : Bool) : Start plainConfig Unit where
  sockReusable := sockReusable
  statFails := false
  debris := none
  magicOpen := .ok ()
  listens := listens
  os := FileSys.os
    { stat := fun _ => .error ENOENT
      magicFile := fun _ => none
      opendir := fun _ => .error ENOENT
      openFile := fun _ => .error ENOENT
      fstat := fun _ => .error ENOENT
      fopen := fun _ => .error ENOENT }
  world := ()
  dispatched := 0

/-- The defaults of a first start, written and then read after a start that could not
listen, although the uninitialised member has another value by then. -/
theorem plain_starts_agree :
    ∃ file file₂ : Option plainConfig.File,
      Prog.exec (tryload plainInet (bareStart false true)) none = (.ok plainDefault, file) ∧
      (Prog.exec (main plainInet (bareStart true false)) file).2 = file₂ ∧
      file₂ = file ∧
      Prog.exec (tryload plainInet (bareStart true true)) file₂ =
        (.ok plainDefault, file₂) := by
  have hfirst : Prog.exec (tryload plainInet (bareStart false true)) none =
      (.ok plainDefault, (Prog.exec (tryload plainInet (bareStart false true)) none).2) := by
    rfl
  exact ⟨_, _, hfirst, rfl, starts_agree plainInet_lawful plainConfig_lawful hfirst
    (.cons ⟨rfl, rfl⟩ (.nil _)) rfl⟩

end Goofy
