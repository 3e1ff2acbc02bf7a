import MarkerDoc.Shell.Machine

/-!
# Signals

Signals are named or numbered.  A trap says what a shell does when it receives one.
-/

namespace MarkerDoc.Shell

namespace Signal

/-- The names of the signals that scripts use. -/
def names : List (Nat × String) :=
  [(0, "EXIT"), (1, "HUP"), (2, "INT"), (3, "QUIT"), (4, "ILL"), (5, "TRAP"), (6, "ABRT"),
    (7, "BUS"), (8, "FPE"), (9, "KILL"), (10, "USR1"), (11, "SEGV"), (12, "USR2"), (13, "PIPE"),
    (14, "ALRM"), (15, "TERM"), (16, "16"), (17, "CHLD"), (18, "CONT"), (19, "STOP"),
    (20, "TSTP"), (21, "TTIN"), (22, "TTOU"), (23, "URG"), (24, "XCPU"), (25, "XFSZ"),
    (26, "VTALRM"), (27, "PROF"), (28, "WINCH"), (29, "IO"), (30, "PWR"), (31, "SYS"),
    (32, "32"), (33, "33"), (34, "RTMIN")] ++
  ((List.range 15).map fun i => (35 + i, "RTMIN+" ++ toString (i + 1))) ++
  ((List.range 14).map fun i => (50 + i, "RTMAX-" ++ toString (14 - i))) ++ [(64, "RTMAX")]

/-- A number, if there is a signal with it. -/
def known? (n : Nat) : Option Nat :=
  if n ≤ 64 then some n else none

/-- The number of a signal, from its number or its name in letters of either case. -/
def number? (s : String) : Option Nat :=
  match s.toNat? with
  | some n => known? n
  | none => (names.find? (·.2 == s.map Char.toUpper)).map (·.1)

def name (n : Nat) : String :=
  ((names.find? (·.1 == n)).map (·.2)).getD (toString n)

/-- Whether a signal does nothing by itself. -/
def isHarmless (n : Nat) : Bool :=
  [0, 17, 18, 23, 28].contains n

end Signal

end MarkerDoc.Shell
