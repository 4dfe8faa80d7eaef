import Mathlib.Algebra.Group.Nat.Defs
import Mathlib.Data.List.Nodup
import Goofy.Address
import Goofy.Lib.Effect
import Goofy.Settings

/-!
# Saving and loading the settings

`settings.cc` writes the settings with libconfig and reads them back.  libconfig is a
parameter, with its documented behaviour as hypotheses.  Settings that the program
holds are stored without loss (`settings_survive_reload`).
-/

namespace Goofy

open Effect

/-- The value of a libconfig setting: the types of setting that are written. -/
inductive SettingValue where
  | string (s : Bytes)
  | int (i : Int32)
  | boolean (b : Bool)
deriving DecidableEq

/-- The settings of a group, by name, in the order in which they are added. -/
abbrev SettingGroup : Type :=
  List (Bytes × SettingValue)

/-- The groups below the root of a configuration. -/
abbrev SettingTree : Type :=
  List (Bytes × SettingGroup)

/-- A name that libconfig accepts: a letter or a star first, then also digits,
hyphens and underscores. -/
def validName : Bytes → Bool
  | [] => false
  | b :: name => isStart b && name.all (fun x => isStart x || isNext x)
where
  isStart (b : Byte) : Bool :=
    (65 ≤ b && b ≤ 90) || (97 ≤ b && b ≤ 122) || b == 42
  isNext (b : Byte) : Bool :=
    (48 ≤ b && b ≤ 57) || b == 45 || b == 95

/-- Valid names, no two of them the same. -/
def DistinctNames (names : List Bytes) : Prop :=
  names.Nodup ∧ ∀ name ∈ names, validName name = true

instance (names : List Bytes) : Decidable (DistinctNames names) :=
  inferInstanceAs (Decidable (_ ∧ _))

/-- An `int` setting that is asked for as an `unsigned`. -/
def unsignedOf (i : Int32) : UInt32 :=
  if i < 0 then 0 else i.toUInt32

theorem toNat_unsignedOf_lt (i : Int32) : (unsignedOf i).toNat < 2 ^ 31 := by
  unfold unsignedOf
  split_ifs with hneg
  · decide
  · have hint : i.toInt = i.toBitVec.toInt := rfl
    have hnat : i.toUInt32.toNat = i.toBitVec.toNat := rfl
    have hlt := i.toBitVec.isLt
    have hcond := i.toBitVec.toInt_eq_toNat_cond
    rw [Int32.lt_iff_toInt_lt, Int32.toInt_zero] at hneg
    split_ifs at hcond <;> omega

/-- An `unsigned` that fits into an `int` survives being stored as one. -/
theorem unsignedOf_toInt32
    {u : UInt32} (hu : u.toNat < 2 ^ 31) :
    unsignedOf u.toInt32 = u := by
  have hint : u.toInt32.toInt = u.toNat := by
    show u.toBitVec.toInt = u.toBitVec.toNat
    rw [BitVec.toInt_eq_toNat_of_lt]
    show 2 * u.toNat < 2 ^ 32
    omega
  have hneg : ¬ u.toInt32 < 0 := by
    rw [Int32.lt_iff_toInt_lt, hint, Int32.toInt_zero]
    omega
  rw [unsignedOf, if_neg hneg]
  simp

/-- What the settings use of libconfig: files, settings looked up by name, and their
conversions. -/
structure LibConfig where
  File : Type
  Setting : Type
  writeFile : SettingTree → Except Exn File
  readFile : File → Except Exn Setting
  lookup : Setting → Bytes → Except Exn Setting
  toCString : Setting → Except Exn Bytes
  toUnsigned : Setting → Except Exn UInt32
  toBool : Setting → Except Exn Bool

namespace LibConfig

/-- The setting converts to the value that was stored, strings up to their first
NUL. -/
def Holds (cfg : LibConfig) (setting : cfg.Setting) : SettingValue → Prop
  | .string s => cfg.toCString setting = .ok (cStr s)
  | .int i => cfg.toUnsigned setting = .ok (unsignedOf i)
  | .boolean b => cfg.toBool setting = .ok b

/-- Below the setting each name finds one that is as wanted. -/
def Finds (cfg : LibConfig) {κ : Type} (wanted : cfg.Setting → κ → Prop)
    (setting : cfg.Setting) (entries : List (Bytes × κ)) : Prop :=
  ∀ name value, (name, value) ∈ entries →
    ∃ found, cfg.lookup setting name = .ok found ∧ wanted found value

/-- The documented behaviour of libconfig: what is stored is returned, an integer is
an `int`, and a C string has no NUL. -/
structure Lawful (cfg : LibConfig) : Prop where
  stored : ∀ {tree file}, DistinctNames (tree.map Prod.fst) →
    (∀ group ∈ tree, DistinctNames (group.2.map Prod.fst)) →
    cfg.writeFile tree = .ok file →
    ∃ root, cfg.readFile file = .ok root ∧ cfg.Finds (cfg.Finds cfg.Holds) root tree
  cStr_toCString : ∀ {setting s}, cfg.toCString setting = .ok s → cStr s = s
  toUnsigned_eq : ∀ {setting u}, cfg.toUnsigned setting = .ok u → ∃ i, u = unsignedOf i

end LibConfig

/-- Settings about network configuration. -/
structure Network where
  bindAddress : SockaddrStorage
  listenBacklog : UInt32
  sockReusable : Bool
deriving DecidableEq

namespace Network

/-- The default constructor leaves `sock_reusable` uninitialised. -/
def default (c : Inet) (sockReusable : Bool) : Except Exn Network := do
  let bindAddress ← c.mkaddr (lit "::") 70
  return ⟨bindAddress, 10, sockReusable⟩

def saveTo (c : Inet) (s : Network) : Except Fail SettingGroup :=
  match Family.ofCode s.bindAddress.family with
  | none => .error .assertion
  | some f =>
      match c.ntop f (s.bindAddress.addr f) f.addrStrLen with
      | .error e => .error (.exn (.configError (c.errorText (lit "inet_ntop") e)))
      | .ok out => .ok [
          (lit "address", .string out),
          (lit "port", .int s.bindAddress.port.toUInt32.toInt32),
          (lit "listen_backlog", .int s.listenBacklog.toInt32),
          (lit "sock_reusable", .boolean s.sockReusable)]

def loadFrom (c : Inet) (cfg : LibConfig) (group : cfg.Setting) : Except Exn Network := do
  let address ← cfg.toCString (← cfg.lookup group (lit "address"))
  let port ← cfg.toUnsigned (← cfg.lookup group (lit "port"))
  let bindAddress ← c.mkaddr address port.toUInt16
  let listenBacklog ← cfg.toUnsigned (← cfg.lookup group (lit "listen_backlog"))
  let sockReusable ← cfg.toBool (← cfg.lookup group (lit "sock_reusable"))
  return ⟨bindAddress, listenBacklog, sockReusable⟩

end Network

def Self.loadFrom (cfg : LibConfig) (group : cfg.Setting) : Except Exn Self := do
  let hostname ← cfg.toCString (← cfg.lookup group (lit "hostname"))
  let port ← cfg.toUnsigned (← cfg.lookup group (lit "port"))
  return ⟨hostname, port.toUInt16⟩

def Self.saveTo (s : Self) : SettingGroup :=
  [(lit "hostname", .string s.hostname), (lit "port", .int s.port.toUInt32.toInt32)]

def Content.saveTo (s : Content) : SettingGroup :=
  [(lit "root_gophermap", .string s.rootGophermap)]

def Content.loadFrom (cfg : LibConfig) (group : cfg.Setting) : Except Exn Content := do
  let rootGophermap ← cfg.toCString (← cfg.lookup group (lit "root_gophermap"))
  return ⟨rootGophermap⟩

/-- All the settings: those of the gopher side with those of the network. -/
structure ServerSettings extends Settings where
  network : Network

namespace ServerSettings

/-- The defaults of the program. -/
def default (c : Inet) (sockReusable : Bool) : Except Exn ServerSettings := do
  let network ← Network.default c sockReusable
  return { network }

/-- The constructor that reads a file. -/
def load (c : Inet) (cfg : LibConfig) (file : cfg.File) : Except Exn ServerSettings := do
  let root ← cfg.readFile file
  let network ← Network.loadFrom c cfg (← cfg.lookup root (lit "network"))
  let self ← Self.loadFrom cfg (← cfg.lookup root (lit "server"))
  let content ← Content.loadFrom cfg (← cfg.lookup root (lit "content"))
  return { network, self, content }

/-- The groups that `save` adds below the root. -/
def groups (c : Inet) (s : ServerSettings) : Except Fail SettingTree := do
  let network ← s.network.saveTo c
  return [
    (lit "network", network),
    (lit "server", s.self.saveTo),
    (lit "content", s.content.saveTo)]

def save (c : Inet) (cfg : LibConfig) (s : ServerSettings) : Except Fail cfg.File := do
  let tree ← s.groups c
  (cfg.writeFile tree).mapError .exn

end ServerSettings

section RoundTrip

variable {c : Inet} {cfg : LibConfig}

/-- What is known of the network settings that the program holds: an address made by
`mkaddr`, and a backlog that came from an `int`. -/
structure Network.Storable (s : Network) : Prop where
  bindAddress : ∃ f bytes port, s.bindAddress = .of f bytes port
  listenBacklog : s.listenBacklog.toNat < 2 ^ 31

/-- The strings are C strings, too. -/
structure ServerSettings.Storable (s : ServerSettings) : Prop where
  network : s.network.Storable
  hostname : cStr s.self.hostname = s.self.hostname
  rootGophermap : cStr s.content.rootGophermap = s.content.rootGophermap

theorem Network.storable_of_default
    {sockReusable : Bool} {s : Network} (h : Network.default c sockReusable = .ok s) :
    s.Storable := by
  obtain ⟨addr, haddr, h⟩ := (except_bind_eq_ok_iff _ _ _).mp h
  obtain rfl := Except.ok.inj h
  obtain ⟨f, bytes, rfl⟩ := Inet.mkaddr_eq_ok haddr
  exact ⟨⟨f, bytes, 70, rfl⟩, by simp⟩

theorem Network.storable_of_loadFrom
    (hcfg : cfg.Lawful) {group : cfg.Setting} {s : Network}
    (h : Network.loadFrom c cfg group = .ok s) :
    s.Storable := by
  simp only [Network.loadFrom, except_bind_eq_ok_iff] at h
  obtain ⟨_, -, _, -, _, -, port, -, addr, haddr, _, -, backlog, hbacklog, _, -, _, -, h⟩ := h
  obtain rfl := Except.ok.inj h
  obtain ⟨f, bytes, rfl⟩ := Inet.mkaddr_eq_ok haddr
  obtain ⟨i, rfl⟩ := hcfg.toUnsigned_eq hbacklog
  exact ⟨⟨f, bytes, port.toUInt16, rfl⟩, toNat_unsignedOf_lt i⟩

theorem ServerSettings.storable_of_default
    {sockReusable : Bool} {s : ServerSettings}
    (h : ServerSettings.default c sockReusable = .ok s) :
    s.Storable := by
  obtain ⟨network, hnetwork, h⟩ := (except_bind_eq_ok_iff _ _ _).mp h
  obtain rfl := Except.ok.inj h
  exact ⟨Network.storable_of_default hnetwork, rfl, rfl⟩

theorem ServerSettings.storable_of_load
    (hcfg : cfg.Lawful) {file : cfg.File} {s : ServerSettings}
    (h : ServerSettings.load c cfg file = .ok s) :
    s.Storable := by
  simp only [ServerSettings.load, Self.loadFrom, Content.loadFrom,
    except_bind_eq_ok_iff] at h
  obtain ⟨_, -, _, -, network, hnetwork, _, -, self, ⟨_, -, hostname, hhostname, _, -, _, -, hself⟩,
    _, -, content, ⟨_, -, rootGophermap, hroot, hcontent⟩, h⟩ := h
  obtain rfl := Except.ok.inj hself
  obtain rfl := Except.ok.inj hcontent
  obtain rfl := Except.ok.inj h
  exact ⟨Network.storable_of_loadFrom hcfg hnetwork, hcfg.cStr_toCString hhostname,
    hcfg.cStr_toCString hroot⟩

/-- A 16-bit number survives being stored as an `int`. -/
theorem toUInt16_unsignedOf (port : UInt16) :
    (unsignedOf port.toUInt32.toInt32).toUInt16 = port := by
  have hlt : port.toNat < 2 ^ 16 := port.toNat_lt
  have hsmall : port.toUInt32.toNat < 2 ^ 31 := by
    rw [UInt16.toNat_toUInt32]
    omega
  rw [unsignedOf_toInt32 hsmall]
  simp

theorem Network.Storable.saveTo
    (hc : c.Lawful) (cfg : LibConfig) {s : Network} (hs : s.Storable) :
    ∃ group, s.saveTo c = .ok group ∧ DistinctNames (group.map Prod.fst) ∧
      ∀ setting, cfg.Finds cfg.Holds setting group → loadFrom c cfg setting = .ok s := by
  rcases s with ⟨addr, backlog, reusable⟩
  obtain ⟨f, bytes, port, rfl⟩ := hs.bindAddress
  have hbacklog : unsignedOf backlog.toInt32 = backlog := unsignedOf_toInt32 hs.listenBacklog
  obtain ⟨text, htext⟩ := hc.ntop_ok f bytes
  have hfamily : Family.ofCode (SockaddrStorage.of f bytes port).family = some f :=
    Family.ofCode_code f
  refine ⟨[(lit "address", .string text), (lit "port", .int port.toUInt32.toInt32),
    (lit "listen_backlog", .int backlog.toInt32), (lit "sock_reusable", .boolean reusable)],
    ?_, ?_, ?_⟩
  · simp [Network.saveTo, hfamily, htext]
  · show DistinctNames [lit "address", lit "port", lit "listen_backlog", lit "sock_reusable"]
    decide
  · intro setting hfinds
    obtain ⟨_, haddress, hstring⟩ := hfinds (lit "address") (.string text) (by simp)
    obtain ⟨_, hport, hint⟩ := hfinds (lit "port") (.int port.toUInt32.toInt32) (by simp)
    obtain ⟨_, hlisten, hunsigned⟩ :=
      hfinds (lit "listen_backlog") (.int backlog.toInt32) (by simp)
    obtain ⟨_, hsock, hboolean⟩ := hfinds (lit "sock_reusable") (.boolean reusable) (by simp)
    simp only [LibConfig.Holds, hc.cStr_ntop htext] at hstring hint hunsigned hboolean
    have hmkaddr := hc.mkaddr_ntop htext port
    simp [loadFrom, bind, Except.bind, haddress, hstring, hport, hint, toUInt16_unsignedOf,
      hmkaddr, hlisten, hunsigned, hbacklog, hsock, hboolean, pure, Except.pure]

theorem Self.distinctNames_saveTo (s : Self) : DistinctNames (s.saveTo.map Prod.fst) := by
  show DistinctNames [lit "hostname", lit "port"]
  decide

theorem Self.loadFrom_saveTo
    {s : Self} (hhostname : cStr s.hostname = s.hostname)
    {setting : cfg.Setting} (hfinds : cfg.Finds cfg.Holds setting s.saveTo) :
    loadFrom cfg setting = .ok s := by
  obtain ⟨_, hname, hstring⟩ := hfinds (lit "hostname") (.string s.hostname) (by simp [saveTo])
  obtain ⟨_, hport, hint⟩ := hfinds (lit "port") (.int s.port.toUInt32.toInt32) (by simp [saveTo])
  simp only [LibConfig.Holds, hhostname] at hstring hint
  simp [loadFrom, bind, Except.bind, hname, hstring, hport, hint, toUInt16_unsignedOf,
    pure, Except.pure]

theorem Content.distinctNames_saveTo (s : Content) :
    DistinctNames (s.saveTo.map Prod.fst) := by
  show DistinctNames [lit "root_gophermap"]
  decide

theorem Content.loadFrom_saveTo
    {s : Content} (hroot : cStr s.rootGophermap = s.rootGophermap)
    {setting : cfg.Setting} (hfinds : cfg.Finds cfg.Holds setting s.saveTo) :
    loadFrom cfg setting = .ok s := by
  obtain ⟨_, hname, hstring⟩ :=
    hfinds (lit "root_gophermap") (.string s.rootGophermap) (by simp [saveTo])
  simp only [LibConfig.Holds, hroot] at hstring
  simp [loadFrom, bind, Except.bind, hname, hstring, pure, Except.pure]

/-- The settings can be written, and what is read from the file are the same
settings. -/
theorem ServerSettings.Storable.load_save
    (hc : c.Lawful) (hcfg : cfg.Lawful) {s : ServerSettings} (hs : s.Storable) :
    ∃ tree, s.save c cfg = (cfg.writeFile tree).mapError .exn ∧
      ∀ file, cfg.writeFile tree = .ok file → load c cfg file = .ok s := by
  obtain ⟨network, hnetwork, hnames, hload⟩ := hs.network.saveTo hc cfg
  refine ⟨[(lit "network", network), (lit "server", s.self.saveTo),
    (lit "content", s.content.saveTo)], ?_, ?_⟩
  · simp [save, groups, hnetwork, bind, Except.bind, pure, Except.pure]
  · intro file hfile
    have hgroups : ∀ group ∈ [(lit "network", network), (lit "server", s.self.saveTo),
        (lit "content", s.content.saveTo)], DistinctNames (group.2.map Prod.fst) := by
      simp only [List.forall_mem_cons]
      exact ⟨hnames, s.self.distinctNames_saveTo, s.content.distinctNames_saveTo, by simp⟩
    have htree : DistinctNames ([(lit "network", network), (lit "server", s.self.saveTo),
        (lit "content", s.content.saveTo)].map Prod.fst) := by
      show DistinctNames [lit "network", lit "server", lit "content"]
      decide
    obtain ⟨root, hread, hfinds⟩ := hcfg.stored htree hgroups hfile
    obtain ⟨_, hlookup₁, hfound₁⟩ := hfinds (lit "network") network (by simp)
    obtain ⟨_, hlookup₂, hfound₂⟩ := hfinds (lit "server") s.self.saveTo (by simp)
    obtain ⟨_, hlookup₃, hfound₃⟩ := hfinds (lit "content") s.content.saveTo (by simp)
    simp [load, bind, Except.bind, hread, hlookup₁, hload _ hfound₁, hlookup₂,
      Self.loadFrom_saveTo hs.hostname hfound₂, hlookup₃,
      Content.loadFrom_saveTo hs.rootGophermap hfound₃, pure, Except.pure]

end RoundTrip

section Plain

/-- The bytes of an address in decimal, as in `127.0.0.1`. -/
def numberText (sep : Byte) (numbers : List Byte) : Bytes :=
  [sep].intercalate (numbers.map fun b => toDecimal b.toNat)

def numbersOf (sep : Byte) (text : Bytes) : List Byte :=
  (text.splitOn sep).filterMap fun number => (Decimal.decode number).map UInt8.ofNat

def toAddr (n : Nat) (numbers : List Byte) : Option (Vector Byte n) :=
  if h : numbers.length = n then some ⟨numbers.toArray, by simpa using h⟩ else none

theorem numbersOf_numberText
    {sep : Byte} (hsep : Decimal.isDigit sep = false)
    {numbers : List Byte} (hne : numbers ≠ []) :
    numbersOf sep (numberText sep numbers) = numbers := by
  have hmem : ∀ text ∈ numbers.map (fun b => toDecimal b.toNat), sep ∉ text := by
    intro text htext
    obtain ⟨b, -, rfl⟩ := List.mem_map.mp htext
    exact Decimal.not_mem_encode hsep
  rw [numbersOf, numberText, List.splitOn_intercalate sep hmem (by simpa using hne)]
  simp [List.filterMap_map]

/-- A text of numbers has the separator and digits only. -/
theorem not_mem_numberText
    {sep b : Byte} (hb : Decimal.isDigit b = false) (hne : b ≠ sep) (numbers : List Byte) :
    b ∉ numberText sep numbers := by
  induction numbers with
  | nil => simp [numberText]
  | cons first numbers ih =>
      cases numbers with
      | nil => simpa [numberText] using Decimal.not_mem_encode hb
      | cons second numbers =>
          unfold numberText at ih ⊢
          simp only [List.map_cons, List.intercalate_cons_cons, List.mem_append,
            List.mem_singleton, not_or] at ih ⊢
          exact ⟨⟨Decimal.not_mem_encode hb, hne⟩, ih⟩

/-- A text without the separator is at most one number. -/
theorem length_numbersOf_le
    {sep : Byte} {text : Bytes} (h : sep ∉ text) :
    (numbersOf sep text).length ≤ 1 := by
  rw [numbersOf, List.splitOn_eq_singleton h]
  exact List.length_filterMap_le _ _

theorem toAddr_toList {n : Nat} (addr : Vector Byte n) : toAddr n addr.toList = some addr := by
  simp only [toAddr, Vector.length_toList, dif_pos]
  rw [Option.some.injEq, ← Vector.toArray_inj]
  exact Vector.toArray_toList

/-- Sixteen numbers with colons, sixteen zeros only as `::`. -/
def colonText (addr : Vector Byte 16) : Bytes :=
  if addr = Vector.replicate 16 0 then lit "::" else numberText COLON addr.toList

def ofColonText (text : Bytes) : Option (Vector Byte 16) :=
  if text = lit "::" then some (Vector.replicate 16 0)
  else toAddr 16 (numbersOf COLON text)

theorem not_mem_colonText
    {b : Byte} (hb : Decimal.isDigit b = false) (hne : b ≠ COLON) (addr : Vector Byte 16) :
    b ∉ colonText addr := by
  have hcolon : lit "::" = [COLON, COLON] := rfl
  rw [colonText]
  split_ifs with hzero
  · simp [hcolon, hne]
  · exact not_mem_numberText hb hne _

theorem numbersOf_toList
    {sep : Byte} (hsep : Decimal.isDigit sep = false)
    {n : Nat} (hn : 0 < n) (addr : Vector Byte n) :
    numbersOf sep (numberText sep addr.toList) = addr.toList := by
  refine numbersOf_numberText hsep (List.ne_nil_of_length_pos ?_)
  rwa [Vector.length_toList]

theorem ofColonText_colonText (addr : Vector Byte 16) :
    ofColonText (colonText addr) = some addr := by
  have hnumbers := numbersOf_toList (by decide : Decimal.isDigit COLON = false)
    (by decide : 0 < 16) addr
  unfold colonText ofColonText
  by_cases hzero : addr = Vector.replicate 16 0
  · rw [if_pos hzero, if_pos rfl, hzero]
  · have htext : numberText COLON addr.toList ≠ lit "::" := by
      intro heq
      rw [heq] at hnumbers
      have hnil : numbersOf COLON (lit "::") = [] := by
        decide
      have hlength := addr.length_toList
      rw [← hnumbers, hnil] at hlength
      simp at hlength
    rw [if_neg hzero, if_neg htext, hnumbers, toAddr_toList]

/-- Addresses as decimal numbers, those of the second family between colons. -/
def plainInet : Inet where
  pton
    | .inet, text => .ok (toAddr 4 (numbersOf DOT text))
    | .inet6, text => .ok (ofColonText text)
  ntop
    | .inet, addr, _ => .ok (numberText DOT addr.toList)
    | .inet6, addr, _ => .ok (colonText addr)
  strerror _ := lit "Error"

theorem plainInet_lawful : plainInet.Lawful where
  ntop_ok f addr := by
    cases f <;> exact ⟨_, rfl⟩
  cStr_ntop := by
    intro f addr len text htext
    cases f with
    | inet =>
        obtain rfl := Except.ok.inj htext
        exact Delimited.upTo_of_not_mem (not_mem_numberText (by decide) (by decide) _)
    | inet6 =>
        obtain rfl := Except.ok.inj htext
        exact Delimited.upTo_of_not_mem (not_mem_colonText (by decide) (by decide) _)
  pton_ntop := by
    intro f addr len text htext
    cases f with
    | inet =>
        obtain rfl := Except.ok.inj htext
        have hnumbers := numbersOf_toList (by decide : Decimal.isDigit DOT = false)
          (by decide) addr
        simp only [plainInet, hnumbers]
        exact congrArg Except.ok (toAddr_toList addr)
    | inet6 =>
        obtain rfl := Except.ok.inj htext
        exact congrArg Except.ok (ofColonText_colonText addr)
  rejects := by
    intro addr len text htext
    obtain rfl := Except.ok.inj htext
    have hlength := length_numbersOf_le
      (not_mem_colonText (by decide : Decimal.isDigit DOT = false) (by decide) addr)
    have hfew : (numbersOf DOT (colonText addr)).length ≠ 4 := by
      omega
    exact congrArg Except.ok (dif_neg hfew)

/-- A setting of a configuration that is kept as it is. -/
inductive PlainSetting where
  | root (tree : SettingTree)
  | group (entries : SettingGroup)
  | value (v : SettingValue)

/-- A libconfig whose files are the configurations themselves. -/
def plainConfig : LibConfig where
  File := SettingTree
  Setting := PlainSetting
  writeFile tree := .ok tree
  readFile tree := .ok (.root tree)
  lookup
    | .root tree, name =>
        (tree.lookup name).elim (.error (.std (lit "SettingNotFoundException")))
          fun group => .ok (.group group)
    | .group entries, name =>
        (entries.lookup name).elim (.error (.std (lit "SettingNotFoundException")))
          fun v => .ok (.value v)
    | .value _, _ => .error (.std (lit "SettingNotFoundException"))
  toCString
    | .value (.string s) => .ok (cStr s)
    | _ => .error (.std (lit "SettingTypeException"))
  toUnsigned
    | .value (.int i) => .ok (unsignedOf i)
    | _ => .error (.std (lit "SettingTypeException"))
  toBool
    | .value (.boolean b) => .ok b
    | _ => .error (.std (lit "SettingTypeException"))

theorem lookup_of_mem
    {κ : Type} {entries : List (Bytes × κ)} (h : (entries.map Prod.fst).Nodup)
    {name : Bytes} {v : κ} (hmem : (name, v) ∈ entries) :
    entries.lookup name = some v := by
  obtain ⟨before, after, rfl⟩ := List.append_of_mem hmem
  refine List.lookup_eq_some_iff.mpr ⟨before, after, rfl, ?_⟩
  intro entry hentry
  rw [List.map_append, List.map_cons] at h
  have hout := List.disjoint_of_nodup_append h (List.mem_map_of_mem hentry)
  have hne : name ≠ entry.1 := fun heq => hout (by simp [heq])
  simpa using hne

theorem plainConfig_lawful : plainConfig.Lawful where
  stored := by
    intro tree file htree hgroups hfile
    obtain rfl := Except.ok.inj hfile
    refine ⟨.root tree, rfl, ?_⟩
    intro name entries hmem
    refine ⟨.group entries, by simp [plainConfig, lookup_of_mem htree.1 hmem], ?_⟩
    intro name v hv
    refine ⟨.value v, by simp [plainConfig, lookup_of_mem (hgroups _ hmem).1 hv], ?_⟩
    cases v <;> rfl
  cStr_toCString := by
    intro setting s hs
    match setting with
    | .value (.string stored) =>
        obtain rfl := Except.ok.inj hs
        exact cStr_cStr stored
  toUnsigned_eq := by
    intro setting u hu
    match setting with
    | .value (.int i) => exact ⟨i, (Except.ok.inj hu).symm⟩

/-- The default settings: port 70 on every address. -/
def plainDefault : ServerSettings where
  network := ⟨.of .inet6 (Vector.replicate 16 0) 70, 10, false⟩

end Plain

section Reload

variable {c : Inet} {cfg : LibConfig}

/-- The settings that the program can hold: the defaults, and those of a file. -/
inductive ServerSettings.Obtained
    (c : Inet) (cfg : LibConfig) (s : ServerSettings) : Prop
  | default
      (sockReusable : Bool)
      (h : ServerSettings.default c sockReusable = .ok s)
  | loaded
      (file : cfg.File)
      (h : load c cfg file = .ok s)

/-- Nothing but the writing of the file can fail when settings are saved, and the
file that is written loads as equal settings. -/
theorem settings_survive_reload
    (hc : c.Lawful) (hcfg : cfg.Lawful)
    {s : ServerSettings} (hs : s.Obtained c cfg) :
    (∃ tree, s.save c cfg = (cfg.writeFile tree).mapError .exn) ∧
      ∀ file, s.save c cfg = .ok file → ServerSettings.load c cfg file = .ok s := by
  have hstorable : s.Storable := by
    cases hs with
    | default _ h => exact ServerSettings.storable_of_default h
    | loaded _ h => exact ServerSettings.storable_of_load hcfg h
  obtain ⟨tree, hsave, hload⟩ := hstorable.load_save hc hcfg
  refine ⟨⟨tree, hsave⟩, ?_⟩
  intro file hfile
  rw [hsave] at hfile
  cases hwrite : cfg.writeFile tree with
  | error e => simp [hwrite, Except.mapError] at hfile
  | ok written =>
      rw [hwrite] at hfile
      obtain rfl := Except.ok.inj hfile
      exact hload written hwrite

/-- The default settings survive. -/
theorem plain_settings_survive_reload :
    (∃ tree, plainDefault.save plainInet plainConfig =
        (plainConfig.writeFile tree).mapError .exn) ∧
      ∀ file, plainDefault.save plainInet plainConfig = .ok file →
        ServerSettings.load plainInet plainConfig file = .ok plainDefault :=
  settings_survive_reload plainInet_lawful plainConfig_lawful (.default false (by rfl))

end Reload

end Goofy
