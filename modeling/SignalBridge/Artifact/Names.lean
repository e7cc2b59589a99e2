namespace SignalBridge

def sourceName : String := "moc.cpp"

def headerName : String := "moc.h"

def glueName : String := "moc.go"

/-- The file with the metadata of the classes; Qt's own compiler writes it. -/
def metadataName : String := "moc_moc.h"

def generatedLine : String :=
  "// Code generated by qtmoc. DO NOT EDIT."

/-- A line that includes a file of the same directory. -/
def includeLine (file : String) : String :=
  s!"#include \"{file}\""

end SignalBridge
