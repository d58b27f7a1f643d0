import OrderedEnv.Fixtures.Script

/-!
# Machines for tests

A machine on which the tool is tested has a shell and some utilities (`Script.standardPrograms`).
They are fixtures, and all of them are kept apart in `OrderedEnv.Fixtures`: for the tool, and for
what is proved about it, a program is any function from what it is started with to what it leaves
behind.
-/
