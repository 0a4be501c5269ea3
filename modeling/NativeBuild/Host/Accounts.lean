/-!
# Accounts

The users that a system of its own knows, and the file in which they are listed.

Main definitions:

- `Account`: a user.
- `accounts`: all users.
- `homeOf?`: the home directory of a user.
- `accountLines`: the users as a file lists them.
-/

namespace NativeBuild

/-- A user of the system. -/
structure Account where
  name : String
  number : Nat
  group : Nat
  comment : String
  home : String
  /-- The program that runs when the user logs in. -/
  program : String := "/usr/sbin/nologin"
deriving DecidableEq, Repr

/-- The users that every system has. -/
def accounts : List Account :=
  [⟨"root", 0, 0, "root", "/root", "/bin/bash"⟩,
    { name := "daemon", number := 1, group := 1, comment := "daemon", home := "/usr/sbin" },
    { name := "bin", number := 2, group := 2, comment := "bin", home := "/bin" },
    { name := "sys", number := 3, group := 3, comment := "sys", home := "/dev" },
    ⟨"sync", 4, 65534, "sync", "/bin", "/bin/sync"⟩,
    { name := "games", number := 5, group := 60, comment := "games", home := "/usr/games" },
    { name := "man", number := 6, group := 12, comment := "man", home := "/var/cache/man" },
    { name := "lp", number := 7, group := 7, comment := "lp", home := "/var/spool/lpd" },
    { name := "mail", number := 8, group := 8, comment := "mail", home := "/var/mail" },
    { name := "news", number := 9, group := 9, comment := "news", home := "/var/spool/news" },
    { name := "uucp", number := 10, group := 10, comment := "uucp",
      home := "/var/spool/uucp" },
    { name := "proxy", number := 13, group := 13, comment := "proxy", home := "/bin" },
    { name := "www-data", number := 33, group := 33, comment := "www-data",
      home := "/var/www" },
    { name := "backup", number := 34, group := 34, comment := "backup",
      home := "/var/backups" },
    { name := "list", number := 38, group := 38, comment := "Mailing List Manager",
      home := "/var/list" },
    { name := "irc", number := 39, group := 39, comment := "ircd", home := "/run/ircd" },
    { name := "_apt", number := 42, group := 65534, comment := "", home := "/nonexistent" },
    { name := "nobody", number := 65534, group := 65534, comment := "nobody",
      home := "/nonexistent" }]

/-- The home directory of the user with a name. -/
def homeOf? (name : String) : Option String :=
  (accounts.find? fun account => account.name == name).map Account.home

/-- A user in a line of fields between colons. -/
def Account.line (account : Account) : String :=
  ":".intercalate
    [account.name, "x", toString account.number, toString account.group, account.comment,
      account.home, account.program] ++ "\n"

/-- The users as a file lists them. -/
def accountLines : String :=
  String.join (accounts.map Account.line)

end NativeBuild
