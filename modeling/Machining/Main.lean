import Machining.Demo

def main : IO Unit := do
  for line in Machining.Demo.report Machining.Demo.program do
    IO.println line
