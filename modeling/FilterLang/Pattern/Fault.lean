/-! Why a text is no pattern. Only the engine has words for it. -/
namespace FilterLang

inductive PatternFault where
  | unclosedGroup
  | unopenedGroup
  | badFlags
  | badGroupName
  | lookAround
  | nothingToRepeat
  | badCount
  | unclosedClass
  | badRange
  | badClassItem
  | badEscape
  | backReference
  | unknownProperty
  | unicodeOff
  | notUnicode
  | tooDeep
  | tooLarge
deriving DecidableEq

end FilterLang
