import EntityGraph.Unicode.Runs

namespace EntityGraph.Unicode

def alphabeticRuns : Runs :=
  .ofLines [
  "65N 26Y 6N 26Y 47N Y 10N Y 4N Y 5N 23Y N 31Y N 458Y 4N 12Y 14N 5Y 7N Y N Y 86N Y 42N 5Y N 2Y",
  "2N 4Y N Y 6N Y N 3Y N Y N 20Y N 83Y N 139Y 8N 166Y N 38Y 2N Y 6N 41Y 39N 14Y N Y N 2Y N 2Y N Y",
  "8N 27Y 4N 4Y 29N 11Y 5N 56Y N 7Y 14N 102Y N 8Y 4N 8Y 4N 3Y 10N 3Y 2N Y 16N 48Y 13N 101Y 24N",
  "33Y 9N 2Y 4N Y 5N 24Y 2N 19Y 19N 25Y 7N 11Y 5N 24Y N 6Y 17N 42Y 10N 12Y 3N 7Y 6N 76Y N 16Y N",
  "3Y 4N 15Y 13N 19Y N 8Y 2N 2Y 2N 22Y N 7Y N Y 3N 4Y 3N 8Y 2N 2Y 2N 2Y N Y 8N Y 4N 2Y N 5Y 12N",
  "2Y 10N Y 4N 3Y N 6Y 4N 2Y 2N 22Y N 7Y N 2Y N 2Y N 2Y 4N 5Y 4N 2Y 2N 2Y 4N Y 7N 4Y N Y 17N 6Y",
  "11N 3Y N 9Y N 3Y N 22Y N 7Y N 2Y N 5Y 3N 9Y N 3Y N 2Y 3N Y 15N 4Y 21N 4Y 4N 3Y N 8Y 2N 2Y 2N",
  "22Y N 7Y N 2Y N 5Y 3N 8Y 2N 2Y 2N 2Y 9N 2Y 4N 2Y N 5Y 13N Y 16N 2Y N 6Y 3N 3Y N 4Y 3N 2Y N Y N",
  "2Y 3N 2Y 3N 3Y 3N 12Y 4N 5Y 3N 3Y N 3Y 3N Y 6N Y 40N 13Y N 3Y N 23Y N 16Y 3N 8Y N 3Y N 3Y 8N",
  "2Y N 3Y 2N Y 2N 4Y 28N 4Y N 8Y N 3Y N 23Y N 10Y N 5Y 3N 8Y N 3Y N 3Y 8N 2Y 6N 2Y N 4Y 13N 3Y",
  "12N 13Y N 3Y N 41Y 2N 8Y N 3Y N 3Y N Y 5N 4Y 7N 5Y 22N 6Y N 3Y N 18Y 3N 24Y N 9Y N Y 2N 7Y 8N",
  "6Y N Y N 8Y 18N 2Y 13N 58Y 5N 7Y 6N Y 51N 2Y N Y N 5Y N 24Y N Y N 19Y N 3Y 2N 5Y N Y 6N Y 14N",
  "4Y 32N Y 63N 8Y N 36Y 4N 19Y 4N 16Y N 36Y 67N 55Y N Y 2N 5Y 16N 64Y 10N 4Y 2N 38Y N Y 5N Y 2N",
  "43Y N 333Y N 4Y 2N 7Y N Y N 4Y 2N 41Y N 4Y 2N 33Y N 4Y 2N 7Y N Y N 4Y 2N 15Y N 57Y N 4Y 2N 67Y",
  "37N 16Y 16N 86Y 2N 6Y 3N 620Y 2N 17Y N 26Y 5N 75Y 3N 11Y 7N 20Y 11N 21Y 12N 20Y 12N 13Y N 3Y N",
  "2Y 12N 52Y 2N 19Y 14N Y 4N Y 67N 89Y 7N 43Y 5N 70Y 10N 31Y N 12Y 4N 9Y 23N 30Y 2N 5Y 11N 44Y",
  "4N 26Y 54N 28Y 4N 63Y 2N 20Y 50N Y 23N 2Y 11N 3Y 49N 52Y N 15Y N 8Y 51N 42Y 2N 4Y 10N 44Y N",
  "11Y 14N 55Y 22N 3Y 10N 36Y 2N 9Y 7N 43Y 2N 3Y 41N 4Y N 6Y N 2Y 3N Y 5N 192Y 39N 14Y 11N 278Y",
  "2N 6Y 2N 38Y 2N 6Y 2N 8Y N Y N Y N Y N 31Y 2N 53Y N 7Y N Y 3N 3Y N 7Y 3N 4Y 2N 6Y 4N 13Y 5N 3Y",
  "N 7Y 116N Y 13N Y 16N 13Y 101N Y 4N Y 2N 10Y N Y 3N 5Y 6N Y N Y N Y N 4Y N 11Y 2N 4Y 5N 5Y 4N",
  "Y 17N 41Y 813N 52Y 1814N 229Y 6N 4Y 3N 2Y 12N 38Y N Y 5N Y 2N 56Y 7N Y 16N 23Y 9N 7Y N 7Y N 7Y",
  "N 7Y N 7Y N 7Y N 7Y N 7Y N 32Y 47N Y 469N 3Y 25N 9Y 7N 5Y 2N 5Y 4N 86Y 6N 3Y N 90Y N 4Y 5N 43Y",
  "N 94Y 17N 32Y 48N 16Y 512N 6592Y 64N 22157Y 67N 46Y 2N 269Y 3N 16Y 10N 2Y 20N 47Y 5N 8Y 3N",
  "113Y 39N 9Y 2N 103Y 2N 64Y 5N 2Y N Y N 5Y 24N 20Y N 33Y 24N 52Y 12N 68Y N Y 44N 6Y 3N Y N 3Y",
  "10N 33Y 5N 35Y 13N 29Y 3N 51Y N 12Y 15N Y 16N 16Y 10N 5Y N 55Y 9N 14Y 18N 23Y 3N 69Y N Y N Y",
  "24N 3Y 2N 16Y 2N 4Y 11N 6Y 2N 6Y 2N 6Y 9N 7Y N 7Y N 43Y N 14Y 6N 123Y 21N 11172Y 12N 23Y 4N",
  "49Y 8452N 366Y 2N 106Y 38N 7Y 12N 5Y 5N 12Y N 13Y N 5Y N Y N 2Y N 2Y N 108Y 33N 363Y 18N 64Y",
  "2N 54Y 40N 12Y 116N 5Y N 135Y 36N 26Y 6N 26Y 11N 89Y 3N 6Y 2N 6Y 2N 6Y 2N 3Y 35N 12Y N 26Y N",
  "19Y N 2Y N 15Y 2N 14Y 34N 123Y 69N 53Y 267N 29Y 3N 49Y 47N 32Y 13N 30Y 5N 43Y 5N 30Y 2N 36Y 4N",
  "8Y N 5Y 42N 158Y 18N 36Y 4N 36Y 4N 40Y 8N 52Y 12N 11Y N 15Y N 7Y N 2Y N 11Y N 15Y N 7Y N 2Y",
  "67N 311Y 9N 22Y 10N 8Y 24N 6Y N 42Y N 9Y 69N 6Y 2N Y N 44Y N 2Y 3N Y 2N 23Y 10N 23Y 9N 31Y 65N",
  "19Y N 2Y 10N 22Y 10N 26Y 70N 56Y 6N 2Y 64N 4Y N 2Y 5N 8Y N 3Y N 29Y 42N 29Y 3N 29Y 35N 8Y N",
  "28Y 27N 54Y 10N 22Y 10N 19Y 13N 18Y 110N 73Y 55N 51Y 13N 51Y 13N 40Y 344N 42Y N 2Y 3N 2Y 78N",
  "29Y 10N Y 8N 22Y 42N 18Y 46N 21Y 27N 23Y 9N 70Y 43N 5Y 10N 57Y 9N Y 13N 25Y 23N 51Y 17N 4Y 8N",
  "35Y 3N Y 9N 64Y N 4Y 9N 2Y 10N Y N Y 35N 18Y N 34Y 2N Y 6N 4Y 62N 7Y N Y N 4Y N 15Y N 10Y 7N",
  "57Y 23N 4Y N 8Y 2N 2Y 2N 22Y N 7Y N 2Y N 5Y 3N 8Y 2N 2Y 2N 2Y 3N Y 6N Y 5N 7Y 156N 66Y N 3Y N",
  "4Y 20N 3Y 30N 66Y 2N 2Y N Y 184N 54Y 2N 7Y 25N 6Y 34N 63Y N Y 3N Y 59N 54Y 2N Y 71N 27Y 2N 14Y",
  "21N 7Y 185N 57Y 103N 64Y 31N 8Y 2N Y 2N 8Y N 2Y N 30Y N 2Y 2N 2Y 2N 4Y 93N 8Y 2N 46Y 2N 6Y N Y",
  "N 2Y 27N 51Y 2N 10Y 17N 72Y 5N Y 18N 73Y 263N 9Y N 45Y N 7Y N Y 49N 30Y 2N 22Y N 14Y 73N 7Y N",
  "2Y N 44Y 3N Y N 2Y N 3Y N Y 2N 2Y 24N 6Y N 2Y N 37Y N 2Y N 4Y N Y 327N 23Y 9N 17Y N 41Y 3N 3Y",
  "111N Y 79N 922Y 102N 111Y 17N 196Y 2636N 97Y 15N 1072Y 17N 6Y 4025N 583Y 8633N 569Y 7N 31Y 17N",
  "79Y 17N 30Y 18N 48Y 16N 4Y 31N 21Y 5N 19Y 688N 64Y 128N 75Y 4N 57Y 7N 17Y 64N 2Y N Y 12N 2Y",
  "14N 6136Y 8N 1238Y 42N 9Y 8935N 4Y N 7Y N 2Y N 291Y 15N Y 29N 3Y 2N Y 14N 4Y 8N 396Y 2308N",
  "107Y 5N 13Y 3N 9Y 7N 10Y 4N Y 5985N 85Y N 71Y N 2Y 2N Y 2N 2Y 2N 4Y N 12Y N Y N 7Y N 65Y N 4Y",
  "2N 8Y N 7Y N 28Y N 4Y N 5Y N Y 3N 7Y N 340Y 2N 25Y N 25Y N 31Y N 25Y N 31Y N 25Y N 31Y N 25Y N",
  "31Y N 25Y N 8Y 1844N 31Y 6N 6Y 213N 7Y N 17Y 2N 7Y N 2Y N 5Y 5N 62Y 33N Y 112N 45Y 10N 7Y 16N",
  "Y 321N 30Y 18N 44Y 484N 28Y 756N 7Y N 4Y N 2Y N 15Y N 197Y 59N 68Y 3N Y 3N Y 1204N 4Y N 27Y N",
  "2Y N Y 2N Y N 10Y N 4Y N Y N Y 6N Y 4N Y N Y N Y N 3Y N 2Y N Y 2N Y N Y N Y N Y N Y N 2Y N Y",
  "2N 4Y N 7Y N 4Y N 4Y N Y N 10Y N 17Y 5N 3Y N 5Y N 17Y 628N 26Y 6N 26Y 6N 26Y 3702N 42720Y 32N",
  "4154Y 6N 222Y 2N 5762Y 14N 7473Y 3103N 542Y 1506N 4939Y 5N 4192Y 908368N"]

def isAlphabetic (c : Char) : Bool :=
  alphabeticRuns.label c == "Y"

def lowercaseRuns : Runs :=
  .ofLines [
  "97N 26Y 47N Y 10N Y 4N Y 36N 24Y N 8Y N Y N Y N Y N Y N Y N Y N Y N Y N Y N Y N Y N Y N Y N Y",
  "N Y N Y N Y N Y N Y N Y N Y N Y N Y N Y N Y N Y N Y N 2Y N Y N Y N Y N Y N Y N Y N Y N 2Y N Y",
  "N Y N Y N Y N Y N Y N Y N Y N Y N Y N Y N Y N Y N Y N Y N Y N Y N Y N Y N Y N Y N Y N Y 2N Y N",
  "Y N 3Y 2N Y N Y 2N Y 3N 2Y 4N Y 2N Y 3N 3Y 2N Y 2N Y N Y N Y 2N Y N 2Y N Y 2N Y 3N Y N Y 2N 2Y",
  "2N 3Y 6N Y 2N Y 2N Y N Y N Y N Y N Y N Y N Y N Y N 2Y N Y N Y N Y N Y N Y N Y N Y N Y N 2Y 2N",
  "Y N Y 3N Y N Y N Y N Y N Y N Y N Y N Y N Y N Y N Y N Y N Y N Y N Y N Y N Y N Y N Y N Y N Y N Y",
  "N Y N Y N Y N Y N Y N Y N Y N 7Y 2N Y 2N 2Y N Y 4N Y N Y N Y N Y N 69Y N 36Y 7N 2Y 30N 5Y 96N",
  "Y 43N Y N Y 3N Y 2N 4Y 18N Y 27N 35Y N 2Y 3N 3Y N Y N Y N Y N Y N Y N Y N Y N Y N Y N Y N Y N",
  "5Y N Y 2N Y 2N 2Y 51N 48Y N Y N Y N Y N Y N Y N Y N Y N Y N Y N Y N Y N Y N Y N Y N Y N Y N Y",
  "9N Y N Y N Y N Y N Y N Y N Y N Y N Y N Y N Y N Y N Y N Y N Y N Y N Y N Y N Y N Y N Y N Y N Y N",
  "Y N Y N Y N Y 2N Y N Y N Y N Y N Y N Y N 2Y N Y N Y N Y N Y N Y N Y N Y N Y N Y N Y N Y N Y N",
  "Y N Y N Y N Y N Y N Y N Y N Y N Y N Y N Y N Y N Y N Y N Y N Y N Y N Y N Y N Y N Y N Y N Y N Y",
  "N Y N Y N Y N Y N Y N Y N Y N Y N Y N Y N Y N Y 48N 41Y 2887N 43Y N 4Y 760N 6Y 2178N 9Y 119N",
  "192Y 65N Y N Y N Y N Y N Y N Y N Y N Y N Y N Y N Y N Y N Y N Y N Y N Y N Y N Y N Y N Y N Y N Y",
  "N Y N Y N Y N Y N Y N Y N Y N Y N Y N Y N Y N Y N Y N Y N Y N Y N Y N Y N Y N Y N Y N Y N Y N",
  "Y N Y N Y N Y N Y N Y N Y N Y N Y N Y N Y N Y N Y N Y N Y N Y N Y N Y N Y N Y N Y N Y N Y N Y",
  "N Y N Y N Y N Y N Y N 9Y N Y N Y N Y N Y N Y N Y N Y N Y N Y N Y N Y N Y N Y N Y N Y N Y N Y N",
  "Y N Y N Y N Y N Y N Y N Y N Y N Y N Y N Y N Y N Y N Y N Y N Y N Y N Y N Y N Y N Y N Y N Y N Y",
  "N Y N Y N Y N Y N Y N Y N Y N 9Y 8N 6Y 10N 8Y 8N 8Y 8N 6Y 10N 8Y 8N 8Y 8N 14Y 2N 8Y 8N 8Y 8N",
  "8Y 8N 5Y N 2Y 6N Y 3N 3Y N 2Y 8N 4Y 2N 2Y 8N 8Y 10N 3Y N 2Y 121N Y 13N Y 16N 13Y 109N Y 3N 2Y",
  "3N Y 27N Y 4N Y 4N Y 2N 2Y 8N 4Y 4N Y 33N 16Y 4N Y 843N 26Y 1862N 48Y N Y 3N 2Y N Y N Y N Y 4N",
  "Y N 2Y N 8Y 3N Y N Y N Y N Y N Y N Y N Y N Y N Y N Y N Y N Y N Y N Y N Y N Y N Y N Y N Y N Y N",
  "Y N Y N Y N Y N Y N Y N Y N Y N Y N Y N Y N Y N Y N Y N Y N Y N Y N Y N Y N Y N Y N Y N Y N Y",
  "N Y N Y N Y N Y N Y N 2Y 7N Y N Y 4N Y 12N 38Y N Y 5N Y 30995N Y N Y N Y N Y N Y N Y N Y N Y N",
  "Y N Y N Y N Y N Y N Y N Y N Y N Y N Y N Y N Y N Y N Y N Y 19N Y N Y N Y N Y N Y N Y N Y N Y N",
  "Y N Y N Y N Y N Y N 3Y 133N Y N Y N Y N Y N Y N Y N 3Y N Y N Y N Y N Y N Y N Y N Y N Y N Y N Y",
  "N Y N Y N Y N Y N Y N Y N Y N Y N Y N Y N Y N Y N Y N Y N Y N Y N Y N Y N Y N Y N 10Y N Y N Y",
  "2N Y N Y N Y N Y N Y 4N Y N Y 2N Y N 3Y N Y N Y N Y N Y N Y N Y N Y N Y N Y N Y 5N Y 5N Y N Y",
  "N Y N Y N Y N Y N Y N Y 4N Y N Y 6N Y N Y N Y N Y N Y 24N 3Y N Y N 3Y 821N 43Y N 14Y 6N 80Y",
  "20288N 7Y 12N 5Y 1065N 26Y 1229N 40Y 136N 36Y 155N 11Y N 15Y N 7Y N 2Y 451N Y 2N 3Y N 42Y N 9Y",
  "1285N 51Y 3021N 32Y 21888N 32Y 26010N 26Y 26N 7Y N 18Y 26N 26Y 26N 4Y N Y N 7Y N 11Y 26N 26Y",
  "26N 26Y 26N 26Y 26N 26Y 26N 26Y 26N 26Y 26N 26Y 26N 26Y 26N 28Y 28N 25Y N 6Y 26N 25Y N 6Y 26N",
  "25Y N 6Y 26N 25Y N 6Y 26N 25Y N 6Y N Y 1844N 10Y N 20Y 6N 6Y 261N 62Y 2228N 34Y 988860N"]

def isLowercase (c : Char) : Bool :=
  lowercaseRuns.label c == "Y"

def uppercaseRuns : Runs :=
  .ofLines [
  "65N 26Y 101N 23Y N 7Y 33N Y N Y N Y N Y N Y N Y N Y N Y N Y N Y N Y N Y N Y N Y N Y N Y N Y N",
  "Y N Y N Y N Y N Y N Y N Y N Y N Y N Y N Y 2N Y N Y N Y N Y N Y N Y N Y N Y 2N Y N Y N Y N Y N",
  "Y N Y N Y N Y N Y N Y N Y N Y N Y N Y N Y N Y N Y N Y N Y N Y N Y N Y N Y N 2Y N Y N Y 3N 2Y N",
  "Y N 2Y N 3Y 2N 4Y N 2Y N 3Y 3N 2Y N 2Y N Y N Y N 2Y N Y 2N Y N 2Y N 3Y N Y N 2Y 3N Y 7N Y 2N Y",
  "2N Y 2N Y N Y N Y N Y N Y N Y N Y N Y 2N Y N Y N Y N Y N Y N Y N Y N Y N Y 2N Y 2N Y N 3Y N Y",
  "N Y N Y N Y N Y N Y N Y N Y N Y N Y N Y N Y N Y N Y N Y N Y N Y N Y N Y N Y N Y N Y N Y N Y N",
  "Y N Y N Y N Y N Y 7N 2Y N 2Y 2N Y N 4Y N Y N Y N Y N Y 289N Y N Y 3N Y 8N Y 6N Y N 3Y N Y N 2Y",
  "N 17Y N 9Y 35N Y 2N 3Y 3N Y N Y N Y N Y N Y N Y N Y N Y N Y N Y N Y N Y 5N Y 2N Y N 2Y 2N 51Y",
  "48N Y N Y N Y N Y N Y N Y N Y N Y N Y N Y N Y N Y N Y N Y N Y N Y N Y 9N Y N Y N Y N Y N Y N Y",
  "N Y N Y N Y N Y N Y N Y N Y N Y N Y N Y N Y N Y N Y N Y N Y N Y N Y N Y N Y N Y N Y N 2Y N Y N",
  "Y N Y N Y N Y N Y 2N Y N Y N Y N Y N Y N Y N Y N Y N Y N Y N Y N Y N Y N Y N Y N Y N Y N Y N Y",
  "N Y N Y N Y N Y N Y N Y N Y N Y N Y N Y N Y N Y N Y N Y N Y N Y N Y N Y N Y N Y N Y N Y N Y N",
  "Y N Y N Y N Y N Y N Y 2N 38Y 2889N 38Y N Y 5N Y 722N 86Y 2202N 43Y 2N 3Y 320N Y N Y N Y N Y N",
  "Y N Y N Y N Y N Y N Y N Y N Y N Y N Y N Y N Y N Y N Y N Y N Y N Y N Y N Y N Y N Y N Y N Y N Y",
  "N Y N Y N Y N Y N Y N Y N Y N Y N Y N Y N Y N Y N Y N Y N Y N Y N Y N Y N Y N Y N Y N Y N Y N",
  "Y N Y N Y N Y N Y N Y N Y N Y N Y N Y N Y N Y N Y N Y N Y N Y N Y N Y N Y N Y N Y N Y N Y N Y",
  "9N Y N Y N Y N Y N Y N Y N Y N Y N Y N Y N Y N Y N Y N Y N Y N Y N Y N Y N Y N Y N Y N Y N Y N",
  "Y N Y N Y N Y N Y N Y N Y N Y N Y N Y N Y N Y N Y N Y N Y N Y N Y N Y N Y N Y N Y N Y N Y N Y",
  "N Y N Y 9N 8Y 8N 6Y 10N 8Y 8N 8Y 8N 6Y 11N Y N Y N Y N Y 8N 8Y 72N 4Y 12N 4Y 12N 4Y 12N 5Y 11N",
  "4Y 262N Y 4N Y 3N 3Y 2N 3Y 2N Y 3N 5Y 6N Y N Y N Y N 4Y 2N 4Y 10N 2Y 5N Y 26N 16Y 19N Y 818N",
  "26Y 1840N 48Y 48N Y N 3Y 2N Y N Y N Y N 4Y N Y 2N Y 8N 3Y N Y N Y N Y N Y N Y N Y N Y N Y N Y",
  "N Y N Y N Y N Y N Y N Y N Y N Y N Y N Y N Y N Y N Y N Y N Y N Y N Y N Y N Y N Y N Y N Y N Y N",
  "Y N Y N Y N Y N Y N Y N Y N Y N Y N Y N Y N Y N Y N Y N Y N Y N Y 8N Y N Y 4N Y 31053N Y N Y N",
  "Y N Y N Y N Y N Y N Y N Y N Y N Y N Y N Y N Y N Y N Y N Y N Y N Y N Y N Y N Y N Y 19N Y N Y N",
  "Y N Y N Y N Y N Y N Y N Y N Y N Y N Y N Y N Y 135N Y N Y N Y N Y N Y N Y N Y 3N Y N Y N Y N Y",
  "N Y N Y N Y N Y N Y N Y N Y N Y N Y N Y N Y N Y N Y N Y N Y N Y N Y N Y N Y N Y N Y N Y N Y N",
  "Y N Y N Y N Y 10N Y N Y N 2Y N Y N Y N Y N Y 4N Y N Y 2N Y N Y 3N Y N Y N Y N Y N Y N Y N Y N",
  "Y N Y N Y N 5Y N 5Y N Y N Y N Y N Y N Y N Y N Y N 4Y N Y 6N Y 5N Y N Y 28N Y 22315N 26Y 1221N",
  "40Y 136N 36Y 156N 11Y N 15Y N 7Y N 2Y 1770N 51Y 3053N 32Y 21888N 32Y 26016N 26Y 26N 26Y 26N",
  "26Y 26N Y N 2Y 2N Y 2N 2Y 2N 4Y N 8Y 26N 26Y 26N 2Y N 4Y 2N 8Y N 7Y 27N 2Y N 4Y N 5Y N Y 3N 7Y",
  "27N 26Y 26N 26Y 26N 26Y 26N 26Y 26N 26Y 26N 26Y 30N 25Y 33N 25Y 33N 25Y 33N 25Y 33N 25Y 33N Y",
  "4405N 34Y 2062N 26Y 6N 26Y 6N 26Y 986742N"]

def isUppercase (c : Char) : Bool :=
  uppercaseRuns.label c == "Y"

def graphemeExtendRuns : Runs :=
  .ofLines [
  "768N 112Y 275N 7Y 263N 45Y N Y N 2Y N 2Y N Y 72N 11Y 48N 21Y 16N Y 101N 7Y 2N 6Y 2N 2Y N 4Y",
  "35N Y 30N 27Y 91N 11Y 58N 9Y 9N Y 24N 4Y N 9Y N 3Y N 5Y 43N 3Y 60N 8Y 42N 24Y N 32Y 55N Y N Y",
  "4N 8Y 4N Y 3N 7Y 10N 2Y 29N Y 58N Y N Y 2N 4Y 8N Y 9N Y 10N 2Y 26N Y 2N 2Y 57N Y 4N 2Y 4N 2Y",
  "2N 3Y 3N Y 30N 2Y 3N Y 11N 2Y 57N Y 4N 5Y N 2Y 4N Y 20N 2Y 22N 6Y N Y 58N Y N 2Y N 4Y 8N Y 7N",
  "3Y 10N 2Y 30N Y 59N Y N Y 12N Y 9N Y 40N Y 3N Y 55N Y N 3Y 5N 3Y N 4Y 7N 2Y 11N 2Y 29N Y 58N Y",
  "2N Y 2N Y 3N Y 5N 2Y 7N 2Y 11N 2Y 28N 2Y 57N 2Y N Y 2N 4Y 8N Y 9N Y 10N 2Y 29N Y 72N Y 4N Y 2N",
  "3Y N Y 8N Y 81N Y 2N 7Y 12N 8Y 98N Y 2N 9Y 11N 7Y 73N 2Y 27N Y N Y N Y 55N 14Y N 5Y N 2Y 5N",
  "11Y N 36Y 9N Y 102N 4Y N 6Y N 2Y 2N 2Y 25N 2Y 4N 3Y 16N 4Y 13N Y 2N 2Y 6N Y 15N Y 703N 3Y 946N",
  "3Y 29N 2Y 30N 2Y 30N 2Y 64N 2Y N 7Y 8N Y 2N 11Y 9N Y 45N 3Y N Y 117N 2Y 34N Y 118N 3Y 4N 2Y 9N",
  "Y 6N 3Y 219N 2Y 2N Y 58N Y N 7Y N Y N Y 2N 8Y 6N 10Y 2N Y 48N 31Y 49N 4Y 48N 7Y N Y 5N Y 40N",
  "9Y 12N 2Y 32N 4Y 2N 2Y N 3Y 56N Y N 2Y 3N Y N 3Y 58N 8Y 2N 2Y 152N 3Y N 13Y N 7Y 4N Y 6N Y 3N",
  "2Y 198N 64Y 524N Y 195N 33Y 3070N 3Y 141N Y 96N 32Y 554N 6Y 105N 2Y 30164N 4Y N 10Y 32N 2Y 80N",
  "2Y 272N Y 3N Y 4N Y 25N 2Y 5N Y 151N 2Y 26N 18Y 13N Y 38N 8Y 25N 11Y 46N 3Y 48N Y 2N 4Y 2N 2Y",
  "39N Y 67N 6Y 2N 2Y 2N 2Y 12N Y 8N Y 47N Y 51N Y N 3Y 2N 2Y 5N 2Y N Y 42N 2Y 8N Y 238N Y 2N Y",
  "4N Y 20272N Y 737N 16Y 16N 16Y 366N 2Y 605N Y 226N Y 149N 5Y 1670N 3Y N 2Y 5N 4Y 40N 3Y 4N Y",
  "165N 2Y 573N 4Y 387N 2Y 80N 3Y 70N 11Y 49N 4Y 123N Y 54N 15Y 41N Y 2N 2Y 10N 3Y 49N 4Y 2N 2Y",
  "7N Y 61N 3Y 36N 5Y N 8Y 62N Y 12N 2Y 52N 9Y 10N 4Y 2N Y 95N 3Y 2N Y N 2Y 6N Y 2N Y 157N Y 3N",
  "8Y 21N 2Y 57N 2Y N Y N Y 22N Y 14N 7Y 3N 5Y 195N 8Y 2N 3Y N Y 23N Y 81N Y 2N 6Y N Y 2N Y N 2Y",
  "N 2Y 235N Y 2N 4Y 6N 2Y N 2Y 27N 2Y 85N 8Y 2N Y N 2Y 106N Y N Y 2N 6Y N Y 101N 3Y 2N 4Y N 5Y",
  "259N 9Y N 2Y 245N Y 10N 2Y N Y 4N Y 144N 4Y 2N 2Y 4N Y 32N 10Y 40N 6Y 2N 4Y 8N Y 9N 6Y 2N 3Y",
  "46N 13Y N 2Y 406N 7Y N 6Y N Y 82N 22Y 2N 7Y N 2Y N 2Y 122N 6Y 3N Y N 2Y N 7Y N Y 72N 2Y 3N Y N",
  "Y 347N 2Y 11N 2Y 52N 5Y 5N Y N Y 5373N Y 6N 15Y 13978N 5Y 59N 7Y 1048N Y 63N 4Y 81N Y 19640N",
  "2Y 4705N 46Y 2N 23Y 542N Y N 3Y 4N 5Y 8N 8Y 2N 7Y 30N 4Y 148N 3Y 1979N 55Y 4N 50Y 8N Y 14N Y",
  "22N 5Y N 15Y 1360N 7Y N 17Y 2N 7Y N 2Y N 5Y 100N Y 160N 7Y 375N Y 61N 4Y 508N 4Y 992N 7Y 109N",
  "7Y 792277N 96Y 128N 240Y 196112N"]

def isGraphemeExtend (c : Char) : Bool :=
  graphemeExtendRuns.label c == "Y"

end EntityGraph.Unicode
