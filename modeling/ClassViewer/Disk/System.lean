import ClassViewer.Disk.Files

/-!
# The disk of a machine

What is on every machine before anything is put there: directories, special files, and the programs
of the system. A program that is not a script is a file whose first bytes say so; here its name
stands behind them, so that a copy of it is the same program.
-/

namespace ClassViewer.Disk

/-! ## Programs -/

/-- The first bytes of a program that is not a script. -/
def programMark : List UInt8 := [0x7F, 0x45, 0x4C, 0x46]

/-- The file of a program of the system. -/
def programFile (name : String) : Item := .file (⟨programMark.toArray⟩ ++ name.toUTF8) .everybody

/-- The name of the program of the system that a file is. -/
def programName? (bytes : ByteArray) : Option String :=
  if (bytes.extract 0 programMark.length).data.toList = programMark then
    String.fromUTF8? (bytes.extract programMark.length bytes.size)
  else none

/-! ## Places -/

/-- The directories of a machine. -/
def systemDirectories : List Route :=
  [["dev"], ["dev", "fd"], ["dev", "shm"], ["etc"], ["home"], ["mnt"], ["opt"], ["proc"], ["root"],
    ["run"], ["srv"], ["sys"], ["tmp"], ["usr"], ["usr", "bin"], ["usr", "lib"], ["usr", "local"],
    ["usr", "local", "bin"], ["usr", "sbin"], ["usr", "share"], ["var"], ["var", "tmp"]]

/-- Files that are on every machine, whatever they hold. -/
def systemFiles : List Route :=
  [["etc", "fstab"], ["etc", "group"], ["etc", "hostname"], ["etc", "hosts"], ["etc", "passwd"],
    ["etc", "profile"], ["etc", "resolv.conf"], ["etc", "shadow"]]

/-- The directories that are known by a second name. -/
def systemLinks : List (Route × String) :=
  [(["bin"], "usr/bin"), (["lib"], "usr/lib"), (["sbin"], "usr/sbin")]

/-- The special files of a machine. -/
def devices : List (Route × Device) :=
  [(["dev", "null"], .null), (["dev", "zero"], .zero), (["dev", "full"], .full),
    (["dev", "random"], .random), (["dev", "urandom"], .random), (["dev", "tty"], .terminal),
    (["dev", "stdin"], .stream 0), (["dev", "stdout"], .stream 1), (["dev", "stderr"], .stream 2),
    (["dev", "fd", "0"], .stream 0), (["dev", "fd", "1"], .stream 1),
    (["dev", "fd", "2"], .stream 2)]

/-- The disk of a machine with programs of those names. -/
def ofSystem (programs : List String) : Disk :=
  ⟨systemDirectories.map (fun r => (r, .directory)) ++
    systemFiles.map (fun r => (r, .file ByteArray.empty .nobody)) ++
    systemLinks.map (fun l => (l.1, .link l.2)) ++
    devices.map (fun d => (d.1, .device d.2)) ++
    programs.map (fun name => (["usr", "bin", name], programFile name)), []⟩

end ClassViewer.Disk
